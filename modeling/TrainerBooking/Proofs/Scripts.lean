import TrainerBooking.Proofs.Counters

/-! # Operations that call operations

An operation on trainings calls operations of the other desks, in the midst of updates that may come to
nothing.  An act is a function and does not show which operations it calls; its script does.

* **Scripts.** A `Script` says how an act is put together from plain acts and from calls.  It is indexed
  by the act, so there is no script that strays from its act, and a plain act writes nothing under any
  watch, so no call is hidden in it.
* **Invocations.** `Script.calls` is the tree of the operations that are called, each with its failure, if
  it had one, and with those called on its behalf.  It can be worked out in any setting, so without the
  watch (`Script.calls_congr`).
* **Narration.** `Invocations.narration` is what the watch has to write of such a tree: an event before
  each operation and one after it, and between them what is written of the operations inside.
* The watch writes that and nothing else, and counts each outcome once (`Script.records`).  The proof
  follows the script; what a single operation adds is said by `World.Records.watched`. -/

namespace TrainerBooking

/-- The setting without its watch. -/
def Setting.unwatched (s : Setting) : Setting := { s with watch := .bare, spans := [] }

theorem Setting.twin_unwatched (s : Setting) : s.Twin s.unwatched := ⟨rfl, rfl, rfl⟩

theorem Setting.Twin.unwatched {s s' : Setting} (h : s.Twin s') : s'.unwatched = s.unwatched := by
  rw [Setting.unwatched, Setting.unwatched, h.now, h.window, h.held]

/-- The failure in which something ended, if it was refused. -/
def Ending.failure? {α : Type} : Ending Failure α → Option Failure
  | .refused f => some f
  | .done _ | .crashed => none

theorem Ending.outcome?_eq {α : Type} {e : Ending Failure α} (h : e ≠ .crashed) :
    e.outcome? = some e.failure?.isNone := by
  cases e with
  | crashed => exact absurd rfl h
  | done a => rfl
  | refused f => rfl

namespace Desk

/-! ### Invocations -/

/-- Operations that were called one after the other, each with its failure, if it had one, and with the
operations that it called itself. -/
inductive Invocations where
  | none
  | call (o : Operation) (failure? : Option Failure) (inner rest : Invocations)
deriving DecidableEq, Repr

/-- The event before an operation. -/
def Operation.begun (span : String) (o : Operation) : Event :=
  ⟨.debug, "Executing " ++ o.noun, [], [span, o.span]⟩

/-- The event after an operation: a warning exactly if the storage failed in the end. -/
def Operation.ended (span : String) (o : Operation) : Option Failure → Event
  | none => ⟨.debug, o.title ++ " executed successfully", [], [span, o.span]⟩
  | some f =>
    ⟨if f.root.kind = .infrastructure then .warn else .debug, "Failed to execute " ++ o.noun,
      [("error", .text f.message), ("slug", .text f.root.slug)], [span, o.span]⟩

namespace Invocations

/-- The invocations of both, the second ones last. -/
def append : Invocations → Invocations → Invocations
  | none, others => others
  | call o failure? inner rest, others => call o failure? inner (rest.append others)

instance : Append Invocations := ⟨append⟩

/-- The operations that no other one called, with their failures. -/
def direct : Invocations → List (Operation × Option Failure)
  | none => []
  | call o failure? _ rest => (o, failure?) :: rest.direct

/-- How often the operation was called with this outcome, by whomever. -/
def count (o : Operation) (success : Bool) : Invocations → Nat
  | none => 0
  | call o' failure? inner rest =>
    (if o' = o ∧ failure?.isNone = success then 1 else 0) + inner.count o success +
      rest.count o success

/-- What the watch has to write, under a span that is open all the time. -/
def narration (span : String) : Invocations → List Event
  | none => []
  | call o failure? inner rest =>
    o.begun span :: inner.narration span ++ o.ended span failure? :: rest.narration span

variable (first second : Invocations)

theorem none_append : none ++ second = second := rfl

theorem call_append (o : Operation) (failure? : Option Failure) (inner rest : Invocations) :
    call o failure? inner rest ++ second = call o failure? inner (rest ++ second) := rfl

theorem append_none : first ++ none = first := by
  induction first with
  | none => rfl
  | call o failure? inner rest _ ih => rw [call_append, ih]

theorem direct_append : (first ++ second).direct = first.direct ++ second.direct := by
  induction first with
  | none => rfl
  | call o failure? inner rest _ ih => rw [call_append, direct, direct, ih, List.cons_append]

theorem count_append (o : Operation) (success : Bool) :
    (first ++ second).count o success = first.count o success + second.count o success := by
  induction first with
  | none => rw [none_append, count, Nat.zero_add]
  | call o' failure? inner rest _ ih => rw [call_append, count, count, ih, Nat.add_assoc _ _ (count ..)]

theorem narration_append (span : String) :
    (first ++ second).narration span = first.narration span ++ second.narration span := by
  induction first with
  | none => rfl
  | call o failure? inner rest _ ih =>
      simp only [call_append, narration, ih, List.cons_append, List.append_assoc]

end Invocations

/-! ### Scripts -/

/-- How an act is put together from plain acts and from calls of operations. -/
inductive Script : {α : Type} → Act Failure α → Type 1
  /-- The act calls no operation. -/
  | own {α : Type} {act : Act Failure α} (plain : act.Plain) : Script act
  /-- What follows depends on the setting, but not on its watch. -/
  | asking {α : Type} {next : Setting → Act Failure α}
      (same : ∀ s s' : Setting, s.Twin s' → next s' = next s) (rest : ∀ s, Script (next s)) :
      Script (Act.setting >>= next)
  /-- One act, and another one that is told its value. -/
  | andThen {α β : Type} {act : Act Failure α} {next : α → Act Failure β} (first : Script act)
      (rest : ∀ a, Script (next a)) : Script (act >>= next)
  /-- An act whose failures are annotated. -/
  | within {α : Type} {act : Act Failure α} (slug description : String) (script : Script act) :
      Script (act.within slug description)
  /-- An act that is carried out while more is held. -/
  | holding {α : Type} {act : Act Failure α} (f : Held → Held) (script : Script act) :
      Script (act.holding f)
  /-- A call of an operation. -/
  | call {α : Type} {body : Act Failure α} (o : Operation) (script : Script body) :
      Script (watched o body)

namespace Script

variable {α : Type} {act : Act Failure α}

/-- The operations that are called when the act is carried out in a setting and a world. -/
def calls {α : Type} {act : Act Failure α} : Script act → Setting → World → Invocations
  | own _, _, _ => .none
  | asking _ rest, s, w => (rest s.unwatched).calls s w
  | @andThen _ _ act _ first rest, s, w =>
    first.calls s w ++
      match act s w with
      | (.done a, w) => (rest a).calls s w
      | (.refused _, _) | (.crashed, _) => .none
  | within _ _ script, s, w => script.calls s w
  | holding f script, s, w => script.calls { s with held := f s.held } w
  | @call _ body o script, s, w => .call o (body s w).1.failure? (script.calls s w) .none

/-- Whoever watches, an act with a script comes to the same. -/
theorem blind (script : Script act) : act.Blind := by
  induction script with
  | own plain => exact plain.blind
  | asking same rest ih => exact .bind_setting ih same
  | andThen first rest ih ihrest => exact ih.bind ihrest
  | within slug description script ih => exact ih.within slug description
  | holding f script ih => exact ih.holding f
  | call o script ih => exact ih.watched o

end Script

end Desk

/-! ### What the watch writes -/

/-- An event of the watch joins the narration. -/
theorem World.narration_note (level : Level) {message : String}
    (fields : List (String × FieldValue)) (s : Setting) (w : World)
    (h : Event.isNarration message = true) :
    ((Act.note level message fields : Act Failure Unit) s w).2.narration =
      w.narration ++ [⟨level, message, fields, s.spans⟩] := by
  have hevent : Event.narrates ⟨level, message, fields, s.spans⟩ = true := h
  simp [Act.note, narration, hevent]

namespace Desk

theorem Operation.isNarration (o : Operation) :
    Event.isNarration ("Executing " ++ o.noun) = true ∧
      Event.isNarration (o.title ++ " executed successfully") = true ∧
      Event.isNarration ("Failed to execute " ++ o.noun) = true := by
  cases h : o.isQuery <;> simp only [noun, title, h] <;> decide +kernel

variable {α : Type} {s : Setting} {span : String}

theorem opened_narration (o : Operation) (hspans : s.spans = [span, o.span]) (w : World) :
    (opened o s w).narration = w.narration ++ [o.begun span] := by
  have hnote := w.narration_note .debug [] s o.isNarration.1
  rw [hspans] at hnote
  exact hnote

theorem closing_narration (o : Operation) {e : Ending Failure α} (hend : e ≠ .crashed)
    (hspans : s.spans = [span, o.span]) (w : World) :
    (closing o true e s w).2.narration = w.narration ++ [o.ended span e.failure?] := by
  cases e with
  | crashed => exact absurd rfl hend
  | done a =>
      have hnote := World.narration_note .debug [] s
        ((Act.count (o.counter true) : Act Failure Unit) s w).2 o.isNarration.2.1
      rw [hspans] at hnote
      exact hnote
  | refused f =>
      have hlevel : failureLevel f = if f.root.kind = .infrastructure then .warn else .debug := by
        rw [Failure.kind_root, failureLevel]
      show (noteFailure o f s ((Act.count (o.counter false) : Act Failure Unit) s w).2).2.narration =
        w.narration ++ [o.ended span (some f)]
      rw [noteFailure, World.narration_note _ _ _ _ o.isNarration.2.2, hspans, hlevel,
        ← Failure.slug_root]
      rfl

/-- An operation under the full watch. -/
theorem watched_full (o : Operation) (body : Act Failure α) (hwatch : s.watch = .full span)
    (w : World) :
    watched o body s w = narrated o true body { s with spans := [span, o.span] } w := by
  obtain ⟨now, window, watch, spans, held⟩ := s
  obtain rfl : watch = .full span := hwatch
  rfl

end Desk

/-! ### What is recorded -/

/-- From one world to the other, the watch wrote and counted what it has to for the invocations, and
nothing else. -/
structure World.Records (w : World) (span : String) (calls : Desk.Invocations) (w' : World) :
    Prop where
  narration : w'.narration = w.narration ++ calls.narration span
  counted : ∀ o success, w'.counted o success = w.counted o success + calls.count o success

namespace World.Records

variable {α : Type} {w v w' : World} {span : String}

theorem none (w : World) : w.Records span .none w :=
  ⟨(List.append_nil _).symm, fun _ _ => rfl⟩

theorem of_plain {act : Act Failure α} (h : act.Plain) (s : Setting) (w : World) :
    w.Records span .none (act s w).2 where
  narration := (h.narration s w).trans (List.append_nil _).symm
  counted o success := World.counted_congr (h.counters s w) o success

theorem append {first second : Desk.Invocations} (h : w.Records span first v)
    (h' : v.Records span second w') : w.Records span (first ++ second) w' where
  narration := by
    rw [h'.narration, h.narration, Desk.Invocations.narration_append, List.append_assoc]
  counted o success := by
    rw [h'.counted, h.counted, Desk.Invocations.count_append, Nat.add_assoc]

/-- Around what its body records an operation writes two events, and it is counted. -/
theorem watched {body : Act Failure α} {o : Desk.Operation} {inner : Desk.Invocations} {s : Setting}
    (hwatch : s.watch = .full span) (w : World)
    (hend : (Desk.watched o body s w).1 ≠ .crashed)
    (h : ∀ v : World, v.store = w.store → (body { s with spans := [span, o.span] } v).1 ≠ .crashed →
      v.Records span inner (body { s with spans := [span, o.span] } v).2) :
    w.Records span (.call o (Desk.watched o body s w).1.failure? inner .none)
      (Desk.watched o body s w).2 := by
  rw [Desk.watched_full o body hwatch, Desk.narrated_run] at hend ⊢
  dsimp only at hend ⊢
  have hinner := h (Desk.opened o _ w) rfl hend
  refine ⟨?_, fun o' success => ?_⟩
  · rw [Desk.closing_narration o hend rfl, hinner.narration, Desk.opened_narration o rfl]
    simp only [Desk.Invocations.narration, List.append_assoc, List.cons_append, List.nil_append]
  · have hopened : ∀ s, (Desk.opened o s w).counters = w.counters := fun _ => rfl
    rw [Desk.closing_counted, hinner.counted, World.counted_congr (hopened _),
      Ending.outcome?_eq hend, Desk.Invocations.count, Desk.Invocations.count]
    simp only [true_and, Option.some.injEq]
    omega

end World.Records

namespace Desk.Script

variable {α : Type} {act : Act Failure α} {s : Setting}

/-- The same operations are called under every watch. -/
theorem calls_congr (script : Script act) {s' : Setting} (ht : s.Twin s') {w w' : World}
    (hw : w'.store = w.store) : script.calls s' w' = script.calls s w := by
  induction script generalizing s s' w w' with
  | own plain => rfl
  | asking same rest ih =>
      rw [calls, calls, ht.unwatched]
      exact ih s.unwatched ht hw
  | within slug description script ih => exact ih ht hw
  | holding f script ih =>
      have hheld : ({ s with held := f s.held } : Setting).Twin { s' with held := f s'.held } :=
        ⟨ht.now, ht.window, congrArg f ht.held⟩
      exact ih hheld hw
  | call o script ih => rw [calls, calls, ih ht hw, (script.blind s s' w w' ht hw).1]
  | @andThen _ _ act next first rest ih ihrest =>
      have hfirst := first.blind s s' w w' ht hw
      rw [calls, calls, ih ht hw]
      generalize act s w = r at hfirst
      generalize act s' w' = r' at hfirst
      obtain ⟨e, v⟩ := r
      obtain ⟨e', v'⟩ := r'
      obtain ⟨rfl, hstore⟩ := hfirst
      cases e' with
      | done a => exact congrArg _ (ihrest a ht hstore)
      | refused f => rfl
      | crashed => rfl

/-- **The watch records what is called**: the events and the counts of every operation that was called
on the way, and nothing else. -/
theorem records (script : Script act) {span : String} (hwatch : s.watch = .full span) (w : World)
    (hend : (act s w).1 ≠ .crashed) : w.Records span (script.calls s w) (act s w).2 := by
  induction script generalizing s w with
  | own plain => exact .of_plain plain s w
  | @asking _ next same rest ih =>
      have hnext : next s = next s.unwatched := (same s _ s.twin_unwatched).symm
      rw [Act.bind_run_done (Act.setting_run s w), hnext] at hend ⊢
      exact ih s.unwatched hwatch w hend
  | within slug description script ih =>
      refine ih hwatch w fun h => hend ?_
      rw [Act.within, Act.mapCause_run, h]
      rfl
  | holding f script ih =>
      have hheld : ({ s with held := f s.held } : Setting).watch = .full span := hwatch
      exact ih hheld w hend
  | @andThen _ _ act next first rest ih ihrest =>
      have hfirst := ih hwatch w
      rw [Act.bind_run] at hend ⊢
      rw [calls]
      generalize act s w = r at hfirst hend ⊢
      obtain ⟨e, v⟩ := r
      cases e with
      | crashed => exact absurd rfl hend
      | done a => exact (hfirst nofun).append (ihrest a hwatch v hend)
      | refused f =>
          rw [Invocations.append_none]
          exact hfirst nofun
  | @call _ body o script ih =>
      have hopened : ({ s with spans := [span, o.span] } : Setting).watch = .full span := hwatch
      have htwin : s.Twin { s with spans := [span, o.span] } := ⟨rfl, rfl, rfl⟩
      -- The body starts after the first event and under its own span, unlike in `calls`.
      have hrec : w.Records span (.call o (watched o body s w).1.failure? (script.calls s w) .none)
          (watched o body s w).2 := by
        refine .watched hwatch w hend fun v hv hbody => ?_
        rw [← script.calls_congr htwin hv]
        exact ih hopened v hbody
      rw [(script.blind.unwatched o s w).1] at hrec
      exact hrec

end Desk.Script

end TrainerBooking
