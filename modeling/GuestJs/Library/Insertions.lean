import GuestJs.Library.Fallible
import Mathlib.Data.List.Perm.Basic
import Mathlib.Data.Set.Insert

/-!
# Insertions in any order

A table that many hands insert into, each insertion refused where it is at odds with one made before.
Where a table is determined by the insertions it holds, and an insertion goes through exactly when it
agrees with each of these, the order of the insertions does not matter: they all go through when any
two of them agree, and leave the same table.
-/

namespace Fallible

variable {ι σ ε : Type}

/-- `Holds done s` says that the table `s` holds the insertions `done` and nothing else. -/
structure Insertions (insert : ι → Fallible σ ε PUnit) (Agrees : ι → ι → Prop)
    (Holds : Set ι → σ → Prop) : Prop where
  ok_iff : ∀ {done : Set ι} {s : σ}, Holds done s → ∀ item,
    (exec (insert item) s).1 = .ok ⟨⟩ ↔ ∀ earlier ∈ done, Agrees earlier item
  holds : ∀ {done : Set ι} {s s' : σ}, Holds done s → ∀ item,
    exec (insert item) s = (.ok ⟨⟩, s') → Holds (Insert.insert item done) s'
  unique : ∀ {done : Set ι} {s s' : σ}, Holds done s → Holds done s' → s = s'

namespace Insertions

variable {insert : ι → Fallible σ ε PUnit} {Agrees : ι → ι → Prop} {Holds : Set ι → σ → Prop}
  {done : Set ι} {s s' : σ} {items items' : List ι}

theorem holds_forM (h : Insertions insert Agrees Holds) (hs : Holds done s)
    (hrun : exec (forM items insert) s = (.ok ⟨⟩, s')) : Holds (done ∪ {item | item ∈ items}) s' := by
  induction items generalizing done s with
  | nil =>
      obtain rfl : s = s' := congrArg Prod.snd hrun
      simpa using hs
  | cons item items ih =>
      rw [List.forM_cons, exec_bind_ok] at hrun
      obtain ⟨_, t, hfirst, hrest⟩ := hrun
      have hholds := ih (h.holds hs item hfirst) hrest
      have hsame : Insert.insert item done ∪ {other | other ∈ items} =
          done ∪ {other | other ∈ item :: items} := by
        ext other
        simp only [Set.mem_union, Set.mem_insert_iff, Set.mem_ofPred_eq, List.mem_cons]
        tauto
      exact hsame ▸ hholds

/-- **All of them or not.** A list of insertions goes through exactly when each agrees with what the
table holds and any two of them agree. -/
theorem forM_ok_iff (h : Insertions insert Agrees Holds) (hs : Holds done s) :
    (exec (forM items insert) s).1 = .ok ⟨⟩ ↔
      (∀ earlier ∈ done, ∀ item ∈ items, Agrees earlier item) ∧ items.Pairwise Agrees := by
  induction items generalizing done s with
  | nil => simp
  | cons item items ih =>
      have hok := h.ok_iff hs item
      rw [List.forM_cons, exec_bind, List.pairwise_cons]
      rcases hrun : exec (insert item) s with ⟨result, t⟩
      rw [hrun] at hok
      cases result with
      | error error =>
          refine iff_of_false nofun ?_
          rintro ⟨hdone, -⟩
          cases hok.mpr fun earlier hearlier => hdone earlier hearlier item List.mem_cons_self
      | ok _ =>
          have hagrees := hok.mp rfl
          show (exec (forM items insert) t).1 = .ok ⟨⟩ ↔ _
          rw [ih (h.holds hs item hrun)]
          simp only [Set.mem_insert_iff, forall_eq_or_imp, List.mem_cons]
          constructor
          · rintro ⟨⟨hitem, hdone⟩, hrest⟩
            exact ⟨fun earlier hearlier => ⟨hagrees earlier hearlier, hdone earlier hearlier⟩,
              hitem, hrest⟩
          · rintro ⟨hdone, hitem, hrest⟩
            exact ⟨⟨hitem, fun earlier hearlier => (hdone earlier hearlier).2⟩, hrest⟩

/-- **In any order.** Insertions that go through in one order go through in every other, and leave
the same table. -/
theorem forM_perm (h : Insertions insert Agrees Holds) (hsymm : ∀ {i j}, Agrees i j → Agrees j i)
    (hs : Holds done s) (hperm : items.Perm items')
    (hrun : exec (forM items insert) s = (.ok ⟨⟩, s')) :
    exec (forM items' insert) s = (.ok ⟨⟩, s') := by
  obtain ⟨hdone, hpairwise⟩ := (h.forM_ok_iff hs).mp (congrArg Prod.fst hrun)
  have hok : (exec (forM items' insert) s).1 = .ok ⟨⟩ :=
    (h.forM_ok_iff hs).mpr ⟨fun earlier hearlier item hitem =>
      hdone earlier hearlier item (hperm.mem_iff.mpr hitem), hperm.pairwise hpairwise hsymm⟩
  rcases hrun' : exec (forM items' insert) s with ⟨result, t⟩
  rw [hrun'] at hok
  obtain rfl : result = .ok ⟨⟩ := hok
  have hmem : {item | item ∈ items'} = {item | item ∈ items} := by
    ext item
    exact hperm.mem_iff.symm
  have htable := h.holds_forM hs hrun'
  rw [hmem] at htable
  rw [h.unique htable (h.holds_forM hs hrun)]

end Insertions

end Fallible
