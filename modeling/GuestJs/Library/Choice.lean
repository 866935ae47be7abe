import GuestJs.Library.Resumption

/-!
# Ordered choice

Alternatives are tried in their order. One that fails with a refusal hands over to the next, in the
state it has left; any other failure ends the choice, as a success does. What counts as a refusal is a
parameter twice: for the code that chooses, and for how it should have chosen.
-/

namespace Process

variable {σ Query Answer ε α : Type}

section Choice

variable (environment : Query → σ → Answer × σ) (Refusal : ε → Prop)

/-- Each of the alternatives refuses, one after the other. -/
inductive Refused : List (Process σ Query Answer ε α) → σ → σ → Prop where
  | nil {s : σ} : Refused [] s s
  | cons {p : Process σ Query Answer ε α} {ps : List (Process σ Query Answer ε α)} {s t u : σ}
      {error : ε} (hrun : (p s).resolve environment = (.error error, t)) (hrefusal : Refusal error)
      (hrest : Refused ps t u) : Refused (p :: ps) s u

/-- The alternative of least index that accepts gives the result. Before that only a failure that is
no refusal ends the choice, and when all refuse it fails as `Last` says. -/
inductive Chosen (Last : ε → Prop) (ps : List (Process σ Query Answer ε α)) (s : σ) :
    Except ε α × σ → Prop where
  | accepted {before after : List (Process σ Query Answer ε α)} {p : Process σ Query Answer ε α}
      {t u : σ} {a : α} (hsplit : ps = before ++ p :: after)
      (hbefore : Refused environment Refusal before s t)
      (hrun : (p t).resolve environment = (.ok a, u)) : Chosen Last ps s (.ok a, u)
  | failed {before after : List (Process σ Query Answer ε α)} {p : Process σ Query Answer ε α}
      {t u : σ} {error : ε} (hsplit : ps = before ++ p :: after)
      (hbefore : Refused environment Refusal before s t)
      (hrun : (p t).resolve environment = (.error error, u)) (herror : ¬ Refusal error) :
      Chosen Last ps s (.error error, u)
  | exhausted {t : σ} {error : ε} (hall : Refused environment Refusal ps s t)
      (hlast : Last error) : Chosen Last ps s (.error error, t)

variable {environment Refusal} {Last : ε → Prop} {p : Process σ Query Answer ε α}
  {ps before after : List (Process σ Query Answer ε α)} {s t u : σ} {outcome : Except ε α × σ}

theorem Refused.append (hbefore : Refused environment Refusal before s t)
    (hafter : Refused environment Refusal after t u) :
    Refused environment Refusal (before ++ after) s u := by
  induction hbefore with
  | nil => exact hafter
  | cons hrun hrefusal _ ih => exact .cons hrun hrefusal (ih hafter)

/-- An error that is a refusal is the outcome only when every alternative has refused. -/
theorem Chosen.refusal {error : ε} (h : Chosen environment Refusal Last ps s (.error error, t))
    (hrefusal : Refusal error) : Last error := by
  cases h with
  | failed _ _ _ herror => exact absurd hrefusal herror
  | exhausted _ hlast => exact hlast

end Choice

section FirstOf

variable {environment : Query → σ → Answer × σ} {isRefusal : ε → Bool} {last error : ε}
  {p : Process σ Query Answer ε α} {ps : List (Process σ Query Answer ε α)} {s t : σ} {a : α}

variable {Refusal : ε → Prop}

variable (Refusal) (Last : ε → Prop)

end FirstOf

end Process
