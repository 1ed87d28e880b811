import Iland.Data.KeyedTable

namespace Iland

/-! Conventions shared by the whole model.

An API call of the source returns a result or sets `errno`; it can also run
into undefined behaviour, which the model reports as a `Fault` and never
continues past.
-/

inductive Errno where
  | EBADF | EINVAL | ENOMEM | ENOENT | E2BIG | EFAULT | EOPNOTSUPP | EAGAIN
deriving DecidableEq, Repr

inductive CArray where
  | gState | gObjProps | propArrays | flipCrtcs
deriving DecidableEq, Repr

def CArray.size : CArray → ℕ
  | .gState => 8
  | .gObjProps => 16
  | .propArrays => 16
  | .flipCrtcs => 8

/-- What a C program must not do. -/
inductive Fault where
  | nullDeref
  | outOfBounds (array : CArray) (index : Int)
deriving DecidableEq, Repr

def checkIndex (array : CArray) (index : Int) : Except Fault Unit :=
  if 0 ≤ index ∧ index < array.size then .ok () else .error (.outOfBounds array index)

theorem checkIndex_nat {array : CArray} {index : ℕ} (inside : index < array.size) :
    checkIndex array index = .ok () :=
  if_pos ⟨Int.natCast_nonneg index, Int.ofNat_lt.mpr inside⟩

/-- `for (j = index; j < count; j++) if (p(array[j])) break;` over the used
part of an array, checking each index it reads. -/
def scanFrom (array : CArray) (p : α → Bool) : ℕ → List α → Except Fault (Option α)
  | _, [] => .ok none
  | index, x :: rest => do
      checkIndex array index
      if p x then return some x
      scanFrom array p (index + 1) rest

def scan (array : CArray) (p : α → Bool) (used : List α) : Except Fault (Option α) :=
  scanFrom array p 0 used

theorem scanFrom_eq {array : CArray} {p : α → Bool} {index : ℕ} {used : List α}
    (fits : index + used.length ≤ array.size) : scanFrom array p index used = .ok (used.find? p) := by
  induction used generalizing index with
  | nil => rfl
  | cons x rest ih =>
      simp only [List.length_cons] at fits
      simp only [scanFrom, checkIndex_nat (show index < array.size by omega), bind, Except.bind]
      cases hit : p x with
      | true => simp [hit, pure, Except.pure]
      | false => simpa [hit] using ih (show index + 1 + rest.length ≤ array.size by omega)

theorem scan_eq (array : CArray) {p : α → Bool} {used : List α} (fits : used.length ≤ array.size) :
    scan array p used = .ok (used.find? p) :=
  scanFrom_eq (by simpa using fits)

/-- `for (j = index; j < count; j++) f(array[j]);` over the used part of an
array, checking each index it reads. -/
def eachFrom (array : CArray) (f : β → α → β) : ℕ → β → List α → Except Fault β
  | _, acc, [] => .ok acc
  | index, acc, x :: rest => do
      checkIndex array index
      eachFrom array f (index + 1) (f acc x) rest

def each (array : CArray) (f : β → α → β) (acc : β) (used : List α) : Except Fault β :=
  eachFrom array f 0 acc used

theorem eachFrom_eq {array : CArray} {f : β → α → β} {index : ℕ} {acc : β} {used : List α}
    (fits : index + used.length ≤ array.size) : eachFrom array f index acc used = .ok (used.foldl f acc) := by
  induction used generalizing index acc with
  | nil => rfl
  | cons x rest ih =>
      simp only [List.length_cons] at fits
      simp only [eachFrom, checkIndex_nat (show index < array.size by omega), bind, Except.bind]
      exact ih (by omega)

theorem each_eq (array : CArray) {f : β → α → β} {acc : β} {used : List α}
    (fits : used.length ≤ array.size) : each array f acc used = .ok (used.foldl f acc) :=
  eachFrom_eq (by simpa using fits)

theorem toInt_toInt32 {v : UInt32} (small : v.toNat < 2 ^ 31) : v.toInt32.toInt = v.toNat := by
  rw [show v.toInt32.toInt = v.toBitVec.toInt from rfl, BitVec.toInt_eq_toNat_of_lt]
  · rfl
  · rw [show v.toBitVec.toNat = v.toNat from rfl]
    omega

def toCInt (value : UInt64) : Int32 := value.toUInt32.toInt32

end Iland
