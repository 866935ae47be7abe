import GuestJs.Errors
import GuestJs.Library.Tables

/-!
# Loans of buffer memory

While the host holds a slice of a buffer, a table of the engine says so: the address of the memory
is lent to a number of readers or to one writer. Whatever could run guest code asks the table first.
-/

namespace GuestJs.QuickJs

inductive Loan where
  | shared (count : Nat)
  | exclusive
  deriving DecidableEq

def Loan.kind : Loan → BorrowKind
  | .shared _ => .shared
  | .exclusive => .exclusive

structure Storage where
  name : String
  address : Nat
  deriving DecidableEq

namespace Storage

instance : Ord Storage := ⟨compareLex (compareOn Storage.name) (compareOn Storage.address)⟩

instance : Std.TransOrd Storage :=
  inferInstanceAs (Std.TransCmp (compareLex (compareOn Storage.name) (compareOn Storage.address)))

instance : Std.LawfulEqOrd Storage where
  eq_of_compare := by
    intro first second h
    have hlex : (compare first.name second.name).then (compare first.address second.address) = .eq :=
      h
    obtain ⟨hname, haddress⟩ := Ordering.then_eq_eq.mp hlex
    cases first
    cases second
    cases Std.compare_eq_iff_eq.mp hname
    cases Std.compare_eq_iff_eq.mp haddress
    rfl

end Storage

/-- The table. A shared loan that has been returned by all is no entry. The source hashes its keys,
so an error of `settled` may name any entry; here it names the least. -/
@[ext]
structure Loans where
  entries : Std.ExtTreeMap Storage Loan
  positive : ∀ (storage : Storage) count, entries[storage]? = some (.shared count) → 0 < count

namespace Loans

def empty : Loans := ⟨∅, by simp⟩

def insert (loans : Loans) (storage : Storage) (loan : Loan)
    (hpositive : ∀ count, loan = .shared count → 0 < count) : Loans where
  entries := loans.entries.insert storage loan
  positive := by
    intro other count hcount
    rw [Tables.getElem?_insert] at hcount
    split at hcount
    · exact hpositive count (Option.some.inj hcount)
    · exact loans.positive other count hcount

def remove (loans : Loans) (storage : Storage) : Loans where
  entries := loans.entries.erase storage
  positive := by
    intro other count hcount
    rw [Tables.getElem?_erase] at hcount
    split at hcount
    · cases hcount
    · exact loans.positive other count hcount

theorem positive_one : ∀ count, Loan.shared 1 = .shared count → 0 < count := by
  rintro _ ⟨⟩
  exact Nat.one_pos

theorem positive_exclusive : ∀ count, Loan.exclusive = .shared count → 0 < count := nofun

/-- The entry for one more borrow, or the loan in its way. The source returns a guard with it, whose
drop is `release`. -/
def lend (loans : Loans) (storage : Storage) (kind : BorrowKind) : Except Error Loans :=
  match loans.entries[storage]?, kind with
  | none, .shared => .ok (loans.insert storage (.shared 1) positive_one)
  | none, .exclusive => .ok (loans.insert storage .exclusive positive_exclusive)
  | some (.shared count), .shared =>
      .ok (loans.insert storage (.shared (count + 1)) (by rintro _ ⟨⟩; exact Nat.succ_pos count))
  | some loan, _ => .error (.borrow loan.kind storage.name)

def settled (loans : Loans) : Except Error Unit :=
  match loans.entries.toList.head? with
  | none => .ok ()
  | some (storage, loan) => .error (.borrow loan.kind storage.name)

def release (loans : Loans) (storage : Storage) : Loans :=
  match loans.entries[storage]? with
  | some (.shared count) =>
      if h : 1 < count then
        loans.insert storage (.shared (count - 1)) (by rintro _ ⟨⟩; exact Nat.sub_pos_of_lt h)
      else loans.remove storage
  | _ => loans.remove storage

theorem settled_eq_ok_iff {loans : Loans} : loans.settled = .ok () ↔ loans.entries = ∅ := by
  unfold settled
  cases hhead : loans.entries.toList.head? with
  | none => simpa using List.head?_eq_none_iff.mp hhead
  | some entry =>
      have hne : loans.entries.toList ≠ [] := by
        intro hnil
        rw [hnil] at hhead
        cases hhead
      simpa using hne

theorem settled_eq_error {loans : Loans} {error : Error} (h : loans.settled = .error error) :
    ∃ kind name, error = .borrow kind name := by
  unfold settled at h
  split at h
  · cases h
  · next storage loan _ => exact ⟨loan.kind, storage.name, (Except.error.inj h).symm⟩

end Loans

end GuestJs.QuickJs
