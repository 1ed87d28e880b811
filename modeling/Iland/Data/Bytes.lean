import Iland.Data.Rows

namespace Iland.Data

/-! Bytes in memory, and numbers as bytes, the least significant first. -/

variable {mem : ℕ → UInt8} {base i n : ℕ}

def readBytes (mem : ℕ → UInt8) : ℕ → ℕ → List UInt8
  | _, 0 => []
  | base, n + 1 => mem base :: readBytes mem (base + 1) n

def writeBytes (mem : ℕ → UInt8) : ℕ → List UInt8 → ℕ → UInt8
  | _, [] => mem
  | base, byte :: rest => writeBytes (Function.update mem base byte) (base + 1) rest

theorem readBytes_congr {other : ℕ → UInt8} {origin : ℕ} (same : ∀ k < n, mem (base + k) = other (origin + k)) :
    readBytes mem base n = readBytes other origin n := by
  induction n generalizing base origin with
  | zero => rfl
  | succ n ih =>
      have first : mem base = other origin := same 0 (Nat.succ_pos n)
      have rest : ∀ k < n, mem (base + 1 + k) = other (origin + 1 + k) := by
        intro k inside
        rw [Nat.add_right_comm, Nat.add_right_comm origin]
        exact same (k + 1) (Nat.succ_lt_succ inside)
      rw [readBytes, readBytes, first, ih rest]

/-- What is written one after the other is written in a row. -/
theorem writeBytes_append (mem : ℕ → UInt8) (base : ℕ) (bytes more : List UInt8) :
    writeBytes mem base (bytes ++ more) = writeBytes (writeBytes mem base bytes) (base + bytes.length) more := by
  induction bytes generalizing mem base with
  | nil => rfl
  | cons byte rest ih =>
      rw [List.cons_append, writeBytes, ih, writeBytes, List.length_cons, Nat.add_right_comm, Nat.add_assoc]

theorem writeBytes_outside {bytes : List UInt8} (outside : i < base ∨ base + bytes.length ≤ i) :
    writeBytes mem base bytes i = mem i := by
  induction bytes generalizing mem base with
  | nil => rfl
  | cons byte rest ih =>
      rw [List.length_cons] at outside
      have different : i ≠ base := by omega
      rw [writeBytes, ih (by omega), Function.update_of_ne different]

theorem readBytes_writeBytes (mem : ℕ → UInt8) (base : ℕ) (bytes : List UInt8) :
    readBytes (writeBytes mem base bytes) base bytes.length = bytes := by
  induction bytes generalizing mem base with
  | nil => rfl
  | cons byte rest ih =>
      have first : writeBytes (Function.update mem base byte) (base + 1) rest base = byte := by
        rw [writeBytes_outside (.inl (Nat.lt_succ_self base)), Function.update_self]
      rw [List.length_cons, readBytes, writeBytes, first, ih]

theorem readBytes_writeBytes_outside {bytes : List UInt8} {place : ℕ}
    (outside : base + n ≤ place ∨ place + bytes.length ≤ base) :
    readBytes (writeBytes mem place bytes) base n = readBytes mem base n :=
  readBytes_congr fun _ near => writeBytes_outside (by omega)

theorem readBytes_copyRange {src dst : ℕ → UInt8} {d s size offset : ℕ} (inside : offset + n ≤ size) :
    readBytes (copyRange dst src d s size) (d + offset) n = readBytes src (s + offset) n := by
  refine readBytes_congr fun k near => ?_
  have within : d ≤ d + offset + k ∧ d + offset + k < d + size := by omega
  rw [copyRange, if_pos within]
  congr 1
  omega

/-! Numbers. -/

def leBytes : ℕ → ℕ → List UInt8
  | 0, _ => []
  | n + 1, value => UInt8.ofNat value :: leBytes n (value / 256)

def leValue : List UInt8 → ℕ
  | [] => 0
  | byte :: rest => byte.toNat + 256 * leValue rest

theorem length_leBytes (n value : ℕ) : (leBytes n value).length = n := by
  induction n generalizing value with
  | zero => rfl
  | succ n ih => rw [leBytes, List.length_cons, ih]

theorem leValue_leBytes (n value : ℕ) : leValue (leBytes n value) = value % 256 ^ n := by
  induction n generalizing value with
  | zero => rw [Nat.pow_zero, Nat.mod_one, leBytes, leValue]
  | succ n ih =>
      have split : value % 256 ^ (n + 1) = value % 256 + 256 * (value / 256 % 256 ^ n) := by
        rw [Nat.pow_succ', Nat.mod_mul]
      rw [leBytes, leValue, ih, UInt8.toNat_ofNat', split]

theorem leBytes_add (n m value : ℕ) : leBytes (n + m) value = leBytes n value ++ leBytes m (value / 256 ^ n) := by
  induction n generalizing value with
  | zero => rw [Nat.zero_add, Nat.pow_zero, Nat.div_one, leBytes, List.nil_append]
  | succ n ih => rw [Nat.succ_add, leBytes, ih, leBytes, List.cons_append, Nat.div_div_eq_div_mul, ← Nat.pow_succ']

/-- Only the low part of a number reaches its bytes. -/
theorem leBytes_mod (n value : ℕ) : leBytes n (value % 256 ^ n) = leBytes n value := by
  induction n generalizing value with
  | zero => rfl
  | succ n ih =>
      have low : value % 256 ^ (n + 1) % 256 = value % 256 := Nat.mod_mod_of_dvd value (Dvd.intro_left _ rfl)
      have high : value % 256 ^ (n + 1) / 256 = value / 256 % 256 ^ n := by
        rw [Nat.pow_succ', Nat.mod_mul_right_div_self]
      have byte : UInt8.ofNat (value % 256 ^ (n + 1)) = UInt8.ofNat value := by
        rw [← UInt8.toNat_inj, UInt8.toNat_ofNat', UInt8.toNat_ofNat']
        exact low
      rw [leBytes, leBytes, byte, high, ih]

end Iland.Data
