import Mathlib.Algebra.Order.Floor.Div
import Iland.Data.Bytes

namespace Iland.Data

/-! Values and structures in memory, as C lays them out on a little-endian
machine.

Each member of a structure stands at the next offset that its alignment allows.
-/

class CType (α : Type*) where
  size : ℕ
  align : ℕ
  toBytes : α → List UInt8
  ofBytes : List UInt8 → α
  align_pos : 0 < align
  length_toBytes : ∀ value, (toBytes value).length = size
  ofBytes_toBytes : ∀ value, ofBytes (toBytes value) = value

namespace CType

instance : CType UInt16 where
  size := 2
  align := 2
  toBytes value := leBytes 2 value.toNat
  ofBytes bytes := UInt16.ofNat (leValue bytes)
  align_pos := Nat.two_pos
  length_toBytes _ := length_leBytes _ _
  ofBytes_toBytes value := by
    have fits : value.toNat < 256 ^ 2 := value.toNat_lt
    rw [leValue_leBytes, Nat.mod_eq_of_lt fits, UInt16.ofNat_toNat]

instance : CType UInt32 where
  size := 4
  align := 4
  toBytes value := leBytes 4 value.toNat
  ofBytes bytes := UInt32.ofNat (leValue bytes)
  align_pos := Nat.succ_pos 3
  length_toBytes _ := length_leBytes _ _
  ofBytes_toBytes value := by
    have fits : value.toNat < 256 ^ 4 := value.toNat_lt
    rw [leValue_leBytes, Nat.mod_eq_of_lt fits, UInt32.ofNat_toNat]

/-- An array of bytes. -/
instance (n : ℕ) : CType (Vector UInt8 n) where
  size := n
  align := 1
  toBytes value := value.toList
  ofBytes bytes := if all : bytes.length = n then ⟨bytes.toArray, all⟩ else Vector.replicate n 0
  align_pos := Nat.one_pos
  length_toBytes value := value.length_toList
  ofBytes_toBytes value := by
    rw [dif_pos value.length_toList]
    rfl

/-- The low half of a word stands before the high half. -/
theorem toBytes_halves (word : UInt32) :
    toBytes word = toBytes word.toUInt16 ++ toBytes (word >>> 16).toUInt16 := by
  have low : leBytes 2 word.toNat = leBytes 2 word.toUInt16.toNat := by
    rw [UInt32.toNat_toUInt16]
    exact (leBytes_mod 2 word.toNat).symm
  have high : leBytes 2 (word.toNat / 256 ^ 2) = leBytes 2 (word >>> 16).toUInt16.toNat := by
    have shifted : (word >>> 16).toNat = word.toNat / 256 ^ 2 := by
      rw [UInt32.toNat_shiftRight]
      exact Nat.shiftRight_eq_div_pow _ _
    rw [UInt32.toNat_toUInt16, shifted]
    exact (leBytes_mod 2 _).symm
  calc leBytes (2 + 2) word.toNat = leBytes 2 word.toNat ++ leBytes 2 (word.toNat / 256 ^ 2) := leBytes_add 2 2 _
    _ = leBytes 2 word.toUInt16.toNat ++ leBytes 2 (word >>> 16).toUInt16.toNat := by rw [low, high]

end CType

open CType

section Values

variable {α : Type*} [CType α]

def load (α : Type*) [CType α] (mem : ℕ → UInt8) (base : ℕ) : α := ofBytes (readBytes mem base (size α))

def store (mem : ℕ → UInt8) (base : ℕ) (value : α) : ℕ → UInt8 := writeBytes mem base (toBytes value)

theorem load_store (mem : ℕ → UInt8) (base : ℕ) (value : α) : load α (store mem base value) base = value := by
  rw [load, store, ← length_toBytes value, readBytes_writeBytes, ofBytes_toBytes]

theorem load_writeBytes_outside {mem : ℕ → UInt8} {base place : ℕ} {bytes : List UInt8}
    (outside : base + size α ≤ place ∨ place + bytes.length ≤ base) :
    load α (writeBytes mem place bytes) base = load α mem base := by
  rw [load, load, readBytes_writeBytes_outside outside]

/-- Assignments to the elements of an array, from its first on. -/
def storeArray (mem : ℕ → UInt8) : ℕ → List α → ℕ → UInt8
  | _, [] => mem
  | base, value :: rest => storeArray (store mem base value) (base + size α) rest

theorem storeArray_eq (mem : ℕ → UInt8) (base : ℕ) (values : List α) :
    storeArray mem base values = writeBytes mem base (values.flatMap toBytes) := by
  induction values generalizing mem base with
  | nil => rfl
  | cons value rest ih => rw [storeArray, ih, store, List.flatMap_cons, writeBytes_append, length_toBytes]

theorem length_flatMap_toBytes (values : List α) : (values.flatMap toBytes).length = values.length * size α := by
  induction values with
  | nil => exact (Nat.zero_mul _).symm
  | cons value rest ih =>
      rw [List.flatMap_cons, List.length_append, length_toBytes, ih, List.length_cons, Nat.succ_mul, Nat.add_comm]

end Values

/-! Structures. -/

def alignUp (align offset : ℕ) : ℕ := align * (offset ⌈/⌉ align)

theorem alignUp_of_dvd {align offset : ℕ} (positive : 0 < align) (aligned : align ∣ offset) :
    alignUp align offset = offset := by
  obtain ⟨count, rfl⟩ := aligned
  exact congrArg (align * ·) (smul_ceilDiv positive count)

theorem le_alignUp {align : ℕ} (positive : 0 < align) (offset : ℕ) : offset ≤ alignUp align offset :=
  le_smul_ceilDiv positive

/-- A structure, by the order in which it declares its members. -/
structure Struct {ι : Type*} [DecidableEq ι] (α : ι → Type*) where
  members : List ι
  once : ∀ i, members.count i = 1

namespace Struct

variable {ι : Type*} [DecidableEq ι] {α : ι → Type*} [∀ i, CType (α i)]

variable (α) in
/-- The offset of a member among these, which stand from an offset on. -/
def offsetFrom (i : ι) : ℕ → List ι → ℕ
  | offset, [] => offset
  | offset, j :: rest =>
      if j = i then alignUp (align (α j)) offset else offsetFrom i (alignUp (align (α j)) offset + size (α j)) rest

variable (α) in
def endFrom : ℕ → List ι → ℕ
  | offset, [] => offset
  | offset, i :: rest => endFrom (alignUp (align (α i)) offset + size (α i)) rest

variable (s : Struct α)

def offsetOf (i : ι) : ℕ := offsetFrom α i 0 s.members

def alignment : ℕ := (s.members.map fun i => align (α i)).foldr max 1

def sizeOf : ℕ := alignUp s.alignment (endFrom α 0 s.members)

/-- A member of the structure at an address. -/
def member (mem : ℕ → UInt8) (base : ℕ) (i : ι) : α i := load (α i) mem (base + s.offsetOf i)

def bytes (values : ∀ i, α i) : List UInt8 := s.members.flatMap fun i => toBytes (values i)

variable (α) in
def PackedFrom : ℕ → List ι → Prop
  | _, [] => True
  | offset, i :: rest => align (α i) ∣ offset ∧ PackedFrom (offset + size (α i)) rest

instance decidablePackedFrom : ∀ offset members, Decidable (PackedFrom α offset members)
  | _, [] => .isTrue trivial
  | offset, i :: rest =>
      have := decidablePackedFrom (offset + size (α i)) rest
      inferInstanceAs (Decidable (_ ∧ _))

/-- No member is moved up to its alignment. -/
def Packed : Prop := PackedFrom α 0 s.members

instance : Decidable s.Packed := inferInstanceAs (Decidable (PackedFrom α 0 s.members))

variable {i : ι} {members : List ι}

omit [∀ i, CType (α i)] in
theorem mem_members (s : Struct α) (i : ι) : i ∈ s.members := by
  refine List.count_pos_iff.mp ?_
  rw [s.once i]
  exact Nat.one_pos

omit [DecidableEq ι] in
theorem le_endFrom (offset : ℕ) (members : List ι) : offset ≤ endFrom α offset members := by
  induction members generalizing offset with
  | nil => exact le_rfl
  | cons j rest ih =>
      have up := le_alignUp (align_pos (α := α j)) offset
      exact (up.trans (Nat.le_add_right _ _)).trans (ih _)

theorem offsetFrom_add_size_le (declared : i ∈ members) (offset : ℕ) :
    offsetFrom α i offset members + size (α i) ≤ endFrom α offset members := by
  induction members generalizing offset with
  | nil => cases declared
  | cons j rest ih =>
      rw [offsetFrom, endFrom]
      by_cases here : j = i
      · subst here
        rw [if_pos rfl]
        exact le_endFrom _ rest
      · rw [if_neg here]
        exact ih ((List.mem_cons.mp declared).resolve_left (Ne.symm here)) _

theorem alignment_pos (s : Struct α) : 0 < s.alignment := by
  rw [alignment]
  induction s.members.map fun i => align (α i) with
  | nil => exact Nat.one_pos
  | cons first rest ih => exact ih.trans_le (le_max_right first _)

theorem offsetOf_add_size_le (s : Struct α) (i : ι) : s.offsetOf i + size (α i) ≤ s.sizeOf :=
  (offsetFrom_add_size_le (s.mem_members i) 0).trans (le_alignUp s.alignment_pos _)

/-- A copy of a structure has the same members. -/
theorem member_copyRange (s : Struct α) (dst src : ℕ → UInt8) (d origin : ℕ) (i : ι) :
    s.member (copyRange dst src d origin s.sizeOf) d i = s.member src origin i := by
  rw [member, member, load, load, readBytes_copyRange (s.offsetOf_add_size_le i)]

theorem member_writeBytes_outside {s : Struct α} {mem : ℕ → UInt8} {base place : ℕ} {bytes : List UInt8}
    (behind : base + s.sizeOf ≤ place) (i : ι) : s.member (writeBytes mem place bytes) base i = s.member mem base i := by
  have inside := s.offsetOf_add_size_le i
  exact load_writeBytes_outside (.inl (by omega))

theorem length_bytes (s : Struct α) (values : ∀ i, α i) :
    (s.bytes values).length = (s.members.map fun i => size (α i)).sum := by
  simp only [bytes, List.length_flatMap, length_toBytes]

/-- In a packed structure, each member reads back from where it is written. -/
theorem load_writeBytes {offset : ℕ} (packed : PackedFrom α offset members) (declared : i ∈ members)
    (mem : ℕ → UInt8) (base : ℕ) (values : ∀ i, α i) :
    load (α i) (writeBytes mem (base + offset) (members.flatMap fun i => toBytes (values i)))
      (base + offsetFrom α i offset members) = values i := by
  induction members generalizing offset mem with
  | nil => cases declared
  | cons j rest ih =>
      obtain ⟨aligned, later⟩ := packed
      rw [List.flatMap_cons, writeBytes_append, length_toBytes, offsetFrom,
        alignUp_of_dvd (align_pos (α := α j)) aligned]
      by_cases here : j = i
      · subst here
        rw [if_pos rfl, load_writeBytes_outside (.inl le_rfl)]
        exact load_store mem (base + offset) (values j)
      · rw [if_neg here, Nat.add_assoc base]
        exact ih later ((List.mem_cons.mp declared).resolve_left (Ne.symm here)) _

theorem Packed.member_bytes {s : Struct α} (packed : s.Packed) (mem : ℕ → UInt8) (base : ℕ) (values : ∀ i, α i)
    (i : ι) : s.member (writeBytes mem base (s.bytes values)) base i = values i :=
  load_writeBytes packed (s.mem_members i) mem base values

end Struct

end Iland.Data
