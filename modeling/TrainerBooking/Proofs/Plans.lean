import TrainerBooking.Proofs.Atomic

/-! # Plans

A command that writes several entries, one after the other, takes none of them back.  Which ones it is
to write can be told beforehand, and with it what it leaves behind wherever it ends.

* **Plans.** A `Plan` is a list of steps, each an effect with the annotations under which its failure
  is reported; or there is none, if the command is refused before its first step.
* **Ends.** `Plan.Ends` says how an act with this plan can end.  If it is done, every effect was taken;
  if it is refused, then the annotations are those of a step, and exactly the effects of the steps
  before it were taken; without a plan it is refused and has none.
* **Following.** `Act.Follows` says that an act ends as a plan allows, and has one rule for every way
  in which acts are put together.  The leaves are the operations of the store, which are all or nothing
  (`Act.Atomic`). -/

namespace TrainerBooking

/-- A step of a plan. -/
structure Step where
  /-- What is written. -/
  effect : Effect
  /-- The annotations under which the failure to write it is reported, from the outside in. -/
  operations : List String
deriving DecidableEq, Repr

/-- The step under one more annotation. -/
def Step.within (operation : String) (step : Step) : Step :=
  { step with operations := operation :: step.operations }

theorem Step.effects_within (operation : String) (steps : List Step) :
    (steps.map (Step.within operation)).map Step.effect = steps.map Step.effect := by
  rw [List.map_map]
  rfl

/-- The steps that are to be taken, one after the other, and the value in the end; or nothing, if
there is a reason to refuse before the first step. -/
abbrev Plan (α : Type) : Type := Option (List Step × α)

namespace Plan

variable {α : Type}

/-- The plan behind a check. -/
def after {β : Type} (check : Except Violation β) (p : β → Plan α) : Plan α := check.toOption.bind p

theorem after_eq_some {β : Type} {check : Except Violation β} {plan : β → Plan α}
    {p : List Step × α} : after check plan = some p ↔ ∃ b, check = .ok b ∧ plan b = some p := by
  cases check with
  | error v => simp [after, Except.toOption]
  | ok b => simp [after, Except.toOption]

/-- The plan with every step under one more annotation. -/
def within (operation : String) (p : Plan α) : Plan α :=
  p.map fun (steps, a) => (steps.map (Step.within operation), a)

/-- An act with the plan, run from the contents `c`, can end like this, and leaves these contents.
Only if `trapped` can it be refused because a training is not saved. -/
inductive Ends (trapped : Prop) (c : Contents) (p : Plan α) : Ending Failure α → Contents → Prop
  | barred (hp : p = none) (f : Failure) : Ends trapped c p (.refused f) c
  | done {steps : List Step} {a : α} {c' : Contents} (hp : p = some (steps, a))
      (h : c.Path (steps.map Step.effect) c') : Ends trapped c p (.done a) c'
  | stopped (taken rest : List Step) {step : Step} {a : α} {f : Failure} {c' : Contents}
      (hp : p = some (taken ++ step :: rest, a)) (hf : f.operations = step.operations)
      (hsave : step.effect.isSave = true → trapped) (h : c.Path (taken.map Step.effect) c') :
      Ends trapped c p (.refused f) c'
  | crashed (taken rest : List Step) {a : α} {c' : Contents} (hp : p = some (taken ++ rest, a))
      (h : c.Path (taken.map Step.effect) c') : Ends trapped c p .crashed c'

end Plan

/-- Run from the contents `c`, the act ends as the plan allows. -/
def Act.Follows {α : Type} (act : Act Failure α) (s : Setting) (c : Contents) (trapped : Prop)
    (p : Plan α) : Prop :=
  ∀ w : World, w.store.contents = c → p.Ends trapped c (act s w).1 (act s w).2.store.contents

/-! ### Following a plan -/

/-- To answer nothing is no more than to answer something. -/
theorem Act.Atomic.discard {α : Type} {act : Act Failure α} {s : Setting} {c : Contents} {e : Effect}
    (h : act.Atomic s c e) : (act >>= fun _ => (pure () : Act Failure Unit)).Atomic s c e := by
  intro w hw
  have htried := h w hw
  rw [bind_run]
  generalize act s w = r at htried
  obtain ⟨end', w'⟩ := r
  cases htried with
  | taken htakes => exact .taken htakes
  | refused hf => exact .refused hf
  | crashed => exact .crashed

theorem Act.within_discard {α : Type} {act : Act Failure α} {slug description : String} :
    (act >>= fun _ => (pure () : Act Failure Unit)).within slug description =
      act.within slug description >>= fun _ => pure () := by
  funext s w
  rw [Act.within, mapCause_run, bind_run, bind_run, Act.within, mapCause_run]
  generalize act s w = r
  obtain ⟨end', w'⟩ := r
  cases end' <;> rfl

namespace Act.Follows

variable {α β : Type} {s : Setting} {c : Contents} {trapped : Prop}

theorem pure (a : α) : (Pure.pure a : Act Failure α).Follows s c trapped (some ([], a)) := by
  intro w hw
  subst hw
  exact .done rfl (.rest _)

theorem now {next : Moment → Act Failure α} {p : Plan α} (h : (next s.now).Follows s c trapped p) :
    (Act.now >>= next).Follows s c trapped p := h

/-- A check that comes last is no step. -/
theorem ofRule {slug description : String} (e : Except Violation α) :
    ((Act.ofRule e).within slug description).Follows s c trapped
      (Plan.after e fun a => some ([], a)) := by
  intro w hw
  subst hw
  cases e with
  | error v => exact .barred rfl _
  | ok a => exact .done rfl (.rest _)

/-- A check comes before the plan that it admits. -/
theorem check {slug description : String} {e : Except Violation α} {next : α → Act Failure β}
    {plan : α → Plan β} (h : ∀ a, e = .ok a → (next a).Follows s c trapped (plan a)) :
    ((Act.ofRule e).within slug description >>= next).Follows s c trapped (.after e plan) := by
  cases e with
  | error v =>
      intro w hw
      subst hw
      exact .barred rfl _
  | ok a => exact h a rfl

/-- An operation of the store is one step. -/
theorem step {act : Act Failure Unit} {e : Effect} (h : act.Atomic s c e) (he : e.isSave = false)
    {slug description : String} :
    (act.within slug description).Follows s c trapped (some ([⟨e, [slug]⟩], ())) := by
  intro w hw
  have htried := h w hw
  rw [Act.within, mapCause_run]
  generalize act s w = r at htried
  obtain ⟨end', w'⟩ := r
  cases htried with
  | taken htakes => exact .done rfl (.single htakes)
  | refused hf =>
      refine .stopped [] [] rfl (by rw [Failure.operations, hf]) (fun hsave => ?_) (.rest _)
      rw [he] at hsave
      cases hsave
  | crashed => exact .crashed [] _ rfl (.rest _)

/-- And so is one whose answer nobody asks for. -/
theorem stepOf {act : Act Failure α} {e : Effect} (h : act.Atomic s c e) (he : e.isSave = false)
    {slug description : String} :
    (act.within slug description >>= fun _ => Pure.pure ()).Follows s c trapped
      (some ([⟨e, [slug]⟩], ())) := by
  rw [← within_discard]
  exact step h.discard he

theorem within {slug description : String} {act : Act Failure α} {p : Plan α}
    (h : act.Follows s c trapped p) :
    (act.within slug description).Follows s c trapped (p.within slug) := by
  intro w hw
  have hends := h w hw
  rw [Act.within, mapCause_run]
  generalize act s w = r at hends
  obtain ⟨e, w'⟩ := r
  cases hends with
  | barred hp f =>
      subst hp
      exact .barred rfl _
  | done hp h =>
      subst hp
      exact .done rfl (by rwa [Step.effects_within])
  | @stopped taken rest step a f c' hp hf hsave h =>
      subst hp
      have hplan : Plan.within slug (some (taken ++ step :: rest, a)) =
          some (taken.map (Step.within slug) ++ step.within slug :: rest.map (Step.within slug),
            a) := by
        simp [Plan.within]
      refine .stopped _ _ hplan ?_ hsave (by rwa [Step.effects_within])
      rw [Failure.operations, hf, Step.within]
  | @crashed taken rest a c' hp h =>
      subst hp
      have hplan : Plan.within slug (some (taken ++ rest, a)) =
          some (taken.map (Step.within slug) ++ rest.map (Step.within slug), a) := by
        simp [Plan.within]
      exact .crashed _ _ hplan (by rwa [Step.effects_within])

/-- An operation that is watched follows the plan that it follows otherwise. -/
theorem watched {o : Desk.Operation} {act : Act Failure α} {p : Plan α}
    (h : ∀ spans, act.Follows { s with spans := spans } c trapped p) :
    (Desk.watched o act).Follows s c trapped p := by
  intro w hw
  obtain ⟨spans, v, hv, he, hst⟩ := Desk.watched_run o act s w
  rw [he, hst]
  exact h spans v (by rw [hv, hw])

theorem barred {act : Act Failure α} {next : α → Act Failure β}
    (h : act.Follows s c trapped none) : (act >>= next).Follows s c trapped none := by
  intro w hw
  have hends := h w hw
  rw [bind_run]
  generalize act s w = r at hends
  obtain ⟨e, w'⟩ := r
  cases hends with
  | barred hp f => exact .barred rfl f
  | done hp h => cases hp
  | stopped taken rest hp hf hsave h => cases hp
  | crashed taken rest hp h => cases hp

/-- One plan after the other: the second is followed from where the first has led. -/
theorem andThen {act : Act Failure α} {next : α → Act Failure β} {steps rest : List Step} {a : α}
    {b : β} (h : act.Follows s c trapped (some (steps, a)))
    (hnext : ∀ c', c.Path (steps.map Step.effect) c' →
      (next a).Follows s c' trapped (some (rest, b))) :
    (act >>= next).Follows s c trapped (some (steps ++ rest, b)) := by
  intro w hw
  have hends := h w hw
  rw [bind_run]
  generalize act s w = r at hends
  obtain ⟨e, w'⟩ := r
  generalize hc' : w'.store.contents = c' at hends
  cases hends with
  | barred hp f => cases hp
  | done hp hpath =>
      cases hp
      have hrest := hnext c' hpath w' hc'
      simp only
      generalize next a s w' = r at hrest
      obtain ⟨e, w''⟩ := r
      cases hrest with
      | barred hp f => cases hp
      | done hp h =>
          cases hp
          exact .done rfl (by rw [List.map_append]; exact hpath.append h)
      | @stopped taken rest step a f c'' hp hf hsave h =>
          cases hp
          refine .stopped (steps ++ taken) rest (by rw [List.append_assoc]) hf hsave ?_
          rw [List.map_append]
          exact hpath.append h
      | @crashed taken rest a c'' hp h =>
          cases hp
          refine .crashed (steps ++ taken) rest (by rw [List.append_assoc]) ?_
          rw [List.map_append]
          exact hpath.append h
  | @stopped taken others step a f c' hp hf hsave hpath =>
      cases hp
      have hplan : some (taken ++ step :: others ++ rest, b) =
          some (taken ++ step :: (others ++ rest), b) := by
        rw [List.append_assoc, List.cons_append]
      exact .stopped _ _ hplan hf hsave (hc' ▸ hpath)
  | @crashed taken others a c' hp hpath =>
      cases hp
      exact .crashed taken (others ++ rest) (by rw [List.append_assoc])
        (hc' ▸ hpath)

end Act.Follows

end TrainerBooking
