import Mathlib.Data.List.Induction
import Mathlib.Data.List.Infix
import Mathlib.Logic.Relation
import RouteManifest.Cancellation

/-!
What a cancelled token stands for. A run of steps is seen through what it did: which token was
cloned from which, and which one was cancelled. Tokens are of one family when clones connect
them; the pool keeps a family as the number of its first token. So a token is cancelled exactly
when some token of its family was, however the clones and the cancellations follow one another.
-/

namespace RouteManifest

namespace TokenPool

open Relation (EqvGen)

def empty : TokenPool := ⟨[], []⟩

/-- A run that starts with one token is one that makes this token first. -/
example (steps : List TokenStep) : start.run steps = empty.run (.fresh :: steps) := rfl

theorem run_concat (pool : TokenPool) (steps : List TokenStep) (last : TokenStep) :
    pool.run (steps ++ [last]) = (pool.run steps).step last := List.foldl_concat ..

theorem get_append_option {Item : Type} {items : List Item} {more : Option Item} {index : Nat}
    {item : Item} : (items ++ more.toList)[index]? = some item ↔
      items[index]? = some item ∨ (index = items.length ∧ more = some item) := by
  rw [List.getElem?_append]
  split
  · next inside =>
      have different : index ≠ items.length := Nat.ne_of_lt inside
      simp [different]
  · next beyond =>
      have none : items[index]? = none := List.getElem?_eq_none (Nat.le_of_not_lt beyond)
      cases more with
      | none => simp [none]
      | some other =>
          have here : index - items.length = 0 ↔ index = items.length := by omega
          simp [none, List.getElem?_singleton, here]

theorem family_step_iff {pool : TokenPool} {step : TokenStep} {token family : Nat} :
    (pool.step step).families[token]? = some family ↔
      pool.families[token]? = some family ∨
        (token = pool.size ∧ ((step = .fresh ∧ family = token) ∨
          ∃ source, step = .clone source ∧ pool.families[source]? = some family)) := by
  cases step with
  | fresh =>
      have made : (pool.step .fresh).families[token]? = some family ↔
          pool.families[token]? = some family ∨
            (token = pool.size ∧ some pool.size = some family) :=
        @get_append_option _ pool.families (some pool.size) token family
      rw [made]
      grind
  | clone source => simp [TokenPool.step, get_append_option, size]
  | cancel cancelled => simp [TokenPool.step]

theorem cancelled_step_iff {pool : TokenPool} {step : TokenStep} {family : Nat} :
    family ∈ (pool.step step).cancelled ↔
      family ∈ pool.cancelled ∨
        ∃ token, step = .cancel token ∧ pool.families[token]? = some family := by
  cases step with
  | fresh => simp [TokenPool.step]
  | clone source => simp [TokenPool.step]
  | cancel token => simp [TokenPool.step, or_comm]

theorem family_run {pool : TokenPool} {steps : List TokenStep} {token family : Nat}
    (named : pool.families[token]? = some family) :
    (pool.run steps).families[token]? = some family := by
  induction steps using List.reverseRecOn with
  | nil => exact named
  | append_singleton steps last induction =>
      rw [run_concat]
      exact family_step_iff.mpr (.inl induction)

theorem family_later {front steps : List TokenStep} (starts : front <+: steps) {token family : Nat}
    (named : (empty.run front).families[token]? = some family) :
    (empty.run steps).families[token]? = some family := by
  obtain ⟨more, rfl⟩ := starts
  rw [run, List.foldl_append]
  exact family_run named

/-- The number of tokens behind a step; a token that does not exist cannot be cloned. -/
def countBehind (count : Nat) : TokenStep → Nat
  | .fresh => count + 1
  | .clone token => if token < count then count + 1 else count
  | .cancel _ => count

def made (steps : List TokenStep) : Nat := steps.foldl countBehind 0

theorem size_step (pool : TokenPool) (step : TokenStep) :
    (pool.step step).size = countBehind pool.size step := by
  cases step with
  | fresh => simp [TokenPool.step, size, countBehind]
  | clone token =>
      by_cases present : token < pool.families.length
      · simp [TokenPool.step, size, countBehind, present]
      · simp [TokenPool.step, size, countBehind, present]
  | cancel token => rfl

theorem size_run (steps : List TokenStep) : (empty.run steps).size = made steps := by
  induction steps using List.reverseRecOn with
  | nil => rfl
  | append_singleton steps last induction =>
      rw [run_concat, size_step, induction, made, made, List.foldl_concat]

theorem family_of_made {steps : List TokenStep} {token : Nat} (present : token < made steps) :
    ∃ family, (empty.run steps).families[token]? = some family :=
  ⟨_, List.getElem?_eq_getElem (Nat.lt_of_lt_of_eq present (size_run steps).symm)⟩

theorem made_of_family {steps : List TokenStep} {token family : Nat}
    (named : (empty.run steps).families[token]? = some family) : token < made steps := by
  obtain ⟨present, -⟩ := List.getElem?_eq_some_iff.mp named
  exact Nat.lt_of_lt_of_eq present (size_run steps)

/-- Behind the steps in front of it a step is taken on a token that exists by then. -/
structure Done (steps front : List TokenStep) (act : Nat → TokenStep) (token : Nat) : Prop where
  starts : front ++ [act token] <+: steps
  present : token < made front

def ClonedAs (steps : List TokenStep) (token copy : Nat) : Prop :=
  ∃ front, Done steps front .clone token ∧ copy = made front

def WasCancelled (steps : List TokenStep) (token : Nat) : Prop :=
  ∃ front, Done steps front .cancel token

/-- Tokens that are connected by clones, in whatever direction. -/
def SameFamily (steps : List TokenStep) : Nat → Nat → Prop := EqvGen (ClonedAs steps)

section Later

variable {steps more : List TokenStep} (starts : steps <+: more)
include starts

theorem Done.later {front : List TokenStep} {act : Nat → TokenStep} {token : Nat}
    (done : Done steps front act token) : Done more front act token :=
  ⟨done.starts.trans starts, done.present⟩

theorem WasCancelled.later {token : Nat} (cancelled : WasCancelled steps token) :
    WasCancelled more token :=
  cancelled.imp fun _ done => done.later starts

theorem SameFamily.later {one other : Nat} (same : SameFamily steps one other) :
    SameFamily more one other := by
  refine EqvGen.mono ?_ one other same
  rintro token copy ⟨front, done, rfl⟩
  exact ⟨front, done.later starts, rfl⟩

end Later

theorem Done.before {steps front : List TokenStep} {act : Nat → TokenStep} {token : Nat}
    (done : Done steps front act token) : front <+: steps :=
  (List.prefix_append _ _).trans done.starts

theorem WasCancelled.family {steps : List TokenStep} {token : Nat}
    (cancelled : WasCancelled steps token) :
    ∃ family, (empty.run steps).families[token]? = some family := by
  obtain ⟨front, done⟩ := cancelled
  obtain ⟨family, named⟩ := family_of_made done.present
  exact ⟨family, family_later done.before named⟩

theorem was_cancelled_concat_iff {steps : List TokenStep} {last : TokenStep} {token : Nat} :
    WasCancelled (steps ++ [last]) token ↔
      (last = .cancel token ∧ token < made steps) ∨ WasCancelled steps token := by
  constructor
  · rintro ⟨front, starts, present⟩
    rcases List.prefix_concat_iff.mp starts with whole | before
    · obtain ⟨rfl, same⟩ := List.append_inj' whole rfl
      exact .inl ⟨(List.singleton_inj.mp same).symm, present⟩
    · exact .inr ⟨front, before, present⟩
  · rintro (⟨rfl, present⟩ | cancelled)
    · exact ⟨steps, List.prefix_refl _, present⟩
    · exact cancelled.later (List.prefix_append _ _)

theorem family_of_cloned {steps : List TokenStep} {token copy : Nat}
    (cloned : ClonedAs steps token copy) :
    (empty.run steps).families[token]? = (empty.run steps).families[copy]? := by
  obtain ⟨front, done, rfl⟩ := cloned
  obtain ⟨family, named⟩ := family_of_made done.present
  have copied : (empty.run (front ++ [.clone token])).families[made front]? = some family := by
    rw [run_concat]
    exact family_step_iff.mpr (.inr ⟨(size_run front).symm, .inr ⟨token, rfl, named⟩⟩)
  rw [family_later done.before named, family_later done.starts copied]

theorem family_of_same {steps : List TokenStep} {one other : Nat}
    (same : SameFamily steps one other) :
    (empty.run steps).families[one]? = (empty.run steps).families[other]? := by
  induction same with
  | rel token copy cloned => exact family_of_cloned cloned
  | refl token => rfl
  | symm one other _ induction => exact induction.symm
  | trans one middle other _ _ first second => exact first.trans second

/-- Every token is connected to the one that its family is named by. -/
theorem same_as_first {steps : List TokenStep} {token family : Nat}
    (named : (empty.run steps).families[token]? = some family) : SameFamily steps token family := by
  induction steps using List.reverseRecOn generalizing token family with
  | nil => cases named
  | append_singleton steps last induction =>
      have before {one : Nat} (named : (empty.run steps).families[one]? = some family) :
          SameFamily (steps ++ [last]) one family :=
        SameFamily.later (List.prefix_append _ _) (induction named)
      rw [run_concat] at named
      -- The token is an old one, begins a family, or was cloned by the last step.
      rcases family_step_iff.mp named with old | ⟨rfl, ⟨-, rfl⟩ | ⟨source, rfl, origin⟩⟩
      · exact before old
      · exact .refl _
      · have copied : ClonedAs (steps ++ [.clone source]) source (empty.run steps).size :=
          ⟨steps, ⟨List.prefix_refl _, made_of_family origin⟩, size_run steps⟩
        exact .trans _ _ _ (.symm _ _ (.rel _ _ copied)) (before origin)

theorem same_family_iff {steps : List TokenStep} {one other family : Nat}
    (named : (empty.run steps).families[one]? = some family) :
    SameFamily steps one other ↔ (empty.run steps).families[other]? = some family := by
  constructor
  · intro same
    rw [← family_of_same same, named]
  · intro also
    exact .trans _ _ _ (same_as_first named) (.symm _ _ (same_as_first also))

theorem mem_cancelled_iff {steps : List TokenStep} {family : Nat} :
    family ∈ (empty.run steps).cancelled ↔
      ∃ token, WasCancelled steps token ∧ (empty.run steps).families[token]? = some family := by
  induction steps using List.reverseRecOn with
  | nil => simp [run, empty]
  | append_singleton steps last induction =>
      have starts : steps <+: steps ++ [last] := List.prefix_append _ _
      rw [run_concat, cancelled_step_iff, induction, ← run_concat]
      constructor
      · rintro (⟨token, cancelled, named⟩ | ⟨token, rfl, named⟩)
        · exact ⟨token, cancelled.later starts, family_later starts named⟩
        · exact ⟨token, was_cancelled_concat_iff.mpr (.inl ⟨rfl, made_of_family named⟩),
            family_later starts named⟩
      · rintro ⟨token, cancelled, named⟩
        rcases was_cancelled_concat_iff.mp cancelled with ⟨rfl, present⟩ | earlier
        · obtain ⟨name, old⟩ := family_of_made present
          rw [family_later starts old] at named
          exact .inr ⟨token, rfl, old.trans named⟩
        · obtain ⟨name, old⟩ := earlier.family
          rw [family_later starts old] at named
          exact .inl ⟨token, earlier, old.trans named⟩

theorem is_cancelled_eq_true_iff {pool : TokenPool} {token : Nat} :
    pool.isCancelled token = true ↔
      ∃ family, pool.families[token]? = some family ∧ family ∈ pool.cancelled := by
  simp [isCancelled, Option.any_eq_true]

theorem is_cancelled_iff_family {steps : List TokenStep} {token : Nat} :
    (empty.run steps).isCancelled token = true ↔
      ∃ source, WasCancelled steps source ∧ SameFamily steps source token := by
  rw [is_cancelled_eq_true_iff]
  constructor
  · rintro ⟨family, named, member⟩
    obtain ⟨source, cancelled, origin⟩ := mem_cancelled_iff.mp member
    exact ⟨source, cancelled, (same_family_iff origin).mpr named⟩
  · rintro ⟨source, cancelled, same⟩
    obtain ⟨family, origin⟩ := cancelled.family
    exact ⟨family, (same_family_iff origin).mp same,
      mem_cancelled_iff.mpr ⟨source, cancelled, origin⟩⟩

/-- To cancel a token changes what its family is, and nothing else. -/
theorem is_cancelled_behind_cancel {steps : List TokenStep} {source token : Nat}
    (present : source < made steps) :
    (empty.run (steps ++ [.cancel source])).isCancelled token = true ↔
      (empty.run steps).isCancelled token = true ∨ SameFamily steps source token := by
  obtain ⟨name, named⟩ := family_of_made present
  have unmoved (family : Nat) :
      ((empty.run steps).step (.cancel source)).families[token]? = some family ↔
        (empty.run steps).families[token]? = some family := by
    simp [family_step_iff]
  simp only [run_concat, is_cancelled_eq_true_iff, unmoved, cancelled_step_iff,
    TokenStep.cancel.injEq, exists_eq_left', named, same_family_iff named]
  constructor
  · rintro ⟨family, also, member | first⟩
    · exact .inl ⟨family, also, member⟩
    · exact .inr (also.trans first.symm)
  · rintro (⟨family, also, member⟩ | also)
    · exact ⟨family, also, .inl member⟩
    · exact ⟨_, also, .inr rfl⟩

/-- Cancellation follows the clones. A token is cancelled exactly when some token of its family
was. It stays cancelled, and so is whatever token is of its family then or later. To cancel one
token changes nothing outside of its family. -/
structure FollowsClones (steps : List TokenStep) : Prop where
  counted : (empty.run steps).size = made steps
  decided : ∀ token, (empty.run steps).isCancelled token = true ↔
    ∃ source, WasCancelled steps source ∧ SameFamily steps source token
  permanent : ∀ token more, (empty.run steps).isCancelled token = true →
    (empty.run (steps ++ more)).isCancelled token = true
  shared : ∀ token copy more, SameFamily (steps ++ more) token copy →
    (empty.run steps).isCancelled token = true →
    (empty.run (steps ++ more)).isCancelled copy = true
  confined : ∀ source token, source < made steps →
    ((empty.run (steps ++ [.cancel source])).isCancelled token = true ↔
      (empty.run steps).isCancelled token = true ∨ SameFamily steps source token)

theorem cancellation_follows_clones (steps : List TokenStep) : FollowsClones steps := by
  have shared (token copy : Nat) (more : List TokenStep)
      (same : SameFamily (steps ++ more) token copy)
      (cancelled : (empty.run steps).isCancelled token = true) :
      (empty.run (steps ++ more)).isCancelled copy = true := by
    obtain ⟨source, done, origin⟩ := is_cancelled_iff_family.mp cancelled
    have starts : steps <+: steps ++ more := List.prefix_append _ _
    exact is_cancelled_iff_family.mpr
      ⟨source, done.later starts, .trans _ _ _ (origin.later starts) same⟩
  exact ⟨size_run steps, fun _ => is_cancelled_iff_family,
    fun token more => shared token token more (.refl _), shared,
    fun _ _ => is_cancelled_behind_cancel⟩

end TokenPool

end RouteManifest
