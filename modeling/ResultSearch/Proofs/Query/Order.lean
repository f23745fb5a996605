import Mathlib.Data.List.Forall2
import ResultSearch.Proofs.Query.Meaning

/-!
# Queries that do not ask for an order

Only a sequence asks in which order the runs come. A query without one holds over some runs exactly
if it holds over the same runs in another order, run for run as often.

* `Query.isUnordered`: there is no sequence in the query.
* `Subject.SameButOrder`: two subjects whose compared statuses differ in their order alone.
* `holds_perm`: what an unordered query says does not depend on the order of the runs.
-/

namespace ResultSearch

namespace Query

mutual

/-- The query does not ask for the order of the runs anywhere. -/
def isUnordered : Query → Bool
  | .const _ => true
  | .testName _ => true
  | .subtestName _ => true
  | .testPath _ => true
  | .status _ _ => true
  | .not q => isUnordered q
  | .or args => areUnordered args
  | .and args => areUnordered args
  | .someRun args => areUnordered args
  | .everyRun args => areUnordered args
  | .noRun args => areUnordered args
  | .consecutive _ => false
  | .tally _ _ q => isUnordered q
  | .link _ => true
  | .triaged _ => true
  | .label _ => true
  | .feature _ => true
  | .quality _ => true

/-- None of the queries asks for the order of the runs. -/
def areUnordered : List Query → Bool
  | [] => true
  | q :: rest => isUnordered q && areUnordered rest

end

end Query

/-- Two subjects are the same but for the order of the statuses that a query may compare. -/
structure Subject.SameButOrder (s t : Subject) : Prop where
  name : s.name = t.name
  status : s.status = t.status
  compared : s.compared.Perm t.compared

namespace Query

variable {b : Binder} {s t : Subject}

theorem hasQuality_perm (h : s.SameButOrder t) (quality : Quality) :
    s.hasQuality quality = t.hasQuality quality := by
  cases quality with
  | different =>
    rw [Subject.hasQuality, Subject.hasQuality, Subject.disagrees, Subject.disagrees,
      h.compared.any_eq]
    simp only [h.compared.any_eq]
  | tentative => rw [Subject.hasQuality, Subject.hasQuality, h.name]
  | optional => rw [Subject.hasQuality, Subject.hasQuality, h.name]

/-! ## Conditions on runs -/

/-- Two conditions say the same of runs that come in different orders. -/
def AgreeOnPerm (p p' : List Run → Bool) : Prop := ∀ runs runs', runs.Perm runs' → p runs = p' runs'

variable {ps ps' : List (List Run → Bool)} {runs runs' : List Run}

theorem AgreeOnPerm.single {p p' : List Run → Bool} (h : AgreeOnPerm p p') (r : Run) :
    p [r] = p' [r] :=
  h [r] [r] (.refl _)

theorem AgreeOnPerm.someRun {p p' : List Run → Bool} (h : AgreeOnPerm p p')
    (hruns : runs.Perm runs') : (runs.any fun r => p [r]) = runs'.any fun r => p' [r] := by
  simp only [h.single, hruns.any_eq]

theorem AgreeOnPerm.everyRun {p p' : List Run → Bool} (h : AgreeOnPerm p p')
    (hruns : runs.Perm runs') : (runs.all fun r => p [r]) = runs'.all fun r => p' [r] := by
  simp only [h.single, hruns.all_eq]

theorem any_eq_of_forall₂ {α β : Type} {f : α → Bool} {g : β → Bool} {l : List α} {m : List β}
    (h : List.Forall₂ (fun a b => f a = g b) l m) : l.any f = m.any g := by
  induction h with
  | nil => rfl
  | cons hab _ ih => rw [List.any_cons, List.any_cons, hab, ih]

theorem all_eq_of_forall₂ {α β : Type} {f : α → Bool} {g : β → Bool} {l : List α} {m : List β}
    (h : List.Forall₂ (fun a b => f a = g b) l m) : l.all f = m.all g := by
  induction h with
  | nil => rfl
  | cons hab _ ih => rw [List.all_cons, List.all_cons, hab, ih]

/-- One condition alone is asked of all the runs, several are asked of single runs. -/
theorem eachSomewhere_perm (h : List.Forall₂ AgreeOnPerm ps ps') (hruns : runs.Perm runs') :
    eachSomewhere ps runs = eachSomewhere ps' runs' := by
  match h with
  | .nil => rfl
  | .cons hp .nil => exact hp runs runs' hruns
  | .cons hp (.cons hp' hrest) =>
    refine all_eq_of_forall₂ ((List.Forall₂.cons hp (.cons hp' hrest)).imp ?_)
    exact fun p p' hp => hp.someRun hruns

/-! ## All queries -/

mutual

/-- A query without a sequence holds over some runs exactly if it holds over them in another
order. -/
theorem holds_perm (h : s.SameButOrder t) :
    (q : Query) → q.isUnordered = true → AgreeOnPerm (q.holds b s) (q.holds b t)
  | .const _, _ => fun _ _ _ => rfl
  | .testName _, _ => fun _ _ _ => by
    rw [holds, holds, Subject.testContains, Subject.testContains, h.name]
  | .subtestName _, _ => fun _ _ _ => by
    rw [holds, holds, Subject.subtestContains, Subject.subtestContains, h.name]
  | .testPath _, _ => fun _ _ _ => by
    rw [holds, holds, Subject.testBegins, Subject.testBegins, h.name]
  | .status _ _, _ => fun _ _ hruns => by rw [holds, holds, h.status, hruns.any_eq]
  | .not q, hq => fun runs runs' hruns => by
    rw [holds, holds, holds_perm h q hq runs runs' hruns]
  | .or args, hq => fun runs runs' hruns =>
    any_eq_of_forall₂ ((conditions_perm h args hq).imp fun _ _ hp => hp runs runs' hruns)
  | .and args, hq => fun runs runs' hruns =>
    all_eq_of_forall₂ ((conditions_perm h args hq).imp fun _ _ hp => hp runs runs' hruns)
  | .someRun args, hq => fun _ _ hruns => eachSomewhere_perm (conditions_perm h args hq) hruns
  | .everyRun args, hq => fun _ _ hruns =>
    all_eq_of_forall₂ ((conditions_perm h args hq).imp fun _ _ hp => hp.everyRun hruns)
  | .noRun args, hq => fun _ _ hruns => by
    rw [holds, holds, eachSomewhere_perm (conditions_perm h args hq) hruns]
  | .consecutive _, hq => by cases hq
  | .tally _ _ q, hq => fun _ _ hruns => by
    have hsingle : (fun r => holds b s q [r]) = fun r => holds b t q [r] :=
      funext (holds_perm h q hq).single
    rw [holds, holds, hsingle, hruns.countP_eq]
  | .link _, _ => fun _ _ hruns => by
    rw [holds, holds, h.name]
    simp only [hruns.any_eq]
  | .triaged _, _ => fun _ _ hruns => by rw [holds, holds, h.name, h.status, hruns.any_eq]
  | .label _, _ => fun _ _ _ => by rw [holds, holds, h.name]
  | .feature _, _ => fun _ _ _ => by rw [holds, holds, h.name]
  | .quality wanted, _ => fun _ _ _ => hasQuality_perm h wanted

theorem conditions_perm (h : s.SameButOrder t) : (args : List Query) → areUnordered args = true →
    List.Forall₂ AgreeOnPerm (conditions b s args) (conditions b t args)
  | [], _ => .nil
  | q :: rest, hargs => by
    rw [areUnordered, Bool.and_eq_true] at hargs
    exact .cons (holds_perm h q hargs.1) (conditions_perm h rest hargs.2)

end

end Query

end ResultSearch
