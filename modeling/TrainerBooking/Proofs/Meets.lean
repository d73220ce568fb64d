import TrainerBooking.Api
import TrainerBooking.Proofs.Books

/-! # What acts do to the books

`act.Meets s b Q` says of an act that is run in the setting `s` from a sound store with the books
`b`: the store stays sound, and `Q` holds of the ending and of the books afterwards.  The journal
and the counters are left open, so nothing proved this way depends on how operations are watched.

There is one rule for every way in which acts are put together.  The rule for a sequence
(`Meets.bind`) asks of the first act that whatever it ends with suits the rest (`Onward`). -/

namespace TrainerBooking

@[simp] theorem Ending.isDone_mapCause {ε δ α : Type} (f : ε → δ) (e : Ending ε α) :
    (e.mapCause f).isDone = e.isDone := by cases e <;> rfl

namespace Act

variable {ε δ α β : Type}

/-- From a sound store with the books `b` the act keeps the store sound, and `Q` holds of its
ending and of the books then. -/
def Meets (act : Act ε α) (s : Setting) (b : Books) (Q : Ending ε α → Books → Prop) : Prop :=
  ∀ w : World, w.store.Sound → w.store.books = b →
    (act s w).2.store.Sound ∧ Q (act s w).1 (act s w).2.store.books

/-- What the first of two acts has to end with, for the second to meet `Q`. -/
def Onward (next : α → Act ε β) (s : Setting) (Q : Ending ε β → Books → Prop) :
    Ending ε α → Books → Prop
  | .done a, b => (next a).Meets s b Q
  | .refused c, b => Q (.refused c) b
  | .crashed, b => Q .crashed b

theorem Onward.of_done {next : α → Act ε β} {s : Setting} {Q : Ending ε β → Books → Prop} {a : α}
    {b : Books} (h : (next a).Meets s b Q) : Onward next s Q (.done a) b := h

namespace Meets

variable {s : Setting} {b : Books}

theorem mono {act : Act ε α} {Q R : Ending ε α → Books → Prop} (h : act.Meets s b Q)
    (hQ : ∀ e b', Q e b' → R e b') : act.Meets s b R :=
  fun w hw hb => ⟨(h w hw hb).1, hQ _ _ (h w hw hb).2⟩

/-- An act that leaves the store alone. -/
theorem of_same {act : Act ε α} {Q : Ending ε α → Books → Prop} {e : Ending ε α}
    (h : ∀ w : World, w.store.books = b → (act s w).1 = e ∧ (act s w).2.store = w.store)
    (hQ : Q e b) : act.Meets s b Q := by
  intro w hw hb
  obtain ⟨he, hs⟩ := h w hb
  rw [he, hs, hb]
  exact ⟨hw, hQ⟩

theorem pure {a : α} {Q : Ending ε α → Books → Prop} (h : Q (.done a) b) :
    (Pure.pure a : Act ε α).Meets s b Q := of_same (fun _ _ => ⟨rfl, rfl⟩) h

theorem ofEnding {e : Ending ε α} {Q : Ending ε α → Books → Prop} (h : Q e b) :
    (Act.ofEnding e).Meets s b Q := of_same (fun _ _ => ⟨rfl, rfl⟩) h

theorem ofExcept {e : Except ε α} {Q : Ending ε α → Books → Prop} (h : Q (Ending.ofExcept e) b) :
    (Act.ofExcept e).Meets s b Q := ofEnding h

theorem refuse {c : ε} {Q : Ending ε α → Books → Prop} (h : Q (.refused c) b) :
    (Act.refuse c : Act ε α).Meets s b Q := ofEnding h

theorem now {Q : Ending ε Moment → Books → Prop} (h : Q (.done s.now) b) :
    (Act.now : Act ε Moment).Meets s b Q := of_same (fun _ _ => ⟨rfl, rfl⟩) h

theorem setting {Q : Ending ε Setting → Books → Prop} (h : Q (.done s) b) :
    (Act.setting : Act ε Setting).Meets s b Q := of_same (fun _ _ => ⟨rfl, rfl⟩) h

theorem note {l : Level} {m : String} {fields : List (String × FieldValue)}
    {Q : Ending ε Unit → Books → Prop} (h : Q (.done ()) b) :
    (Act.note l m fields : Act ε Unit).Meets s b Q := of_same (fun _ _ => ⟨rfl, rfl⟩) h

theorem bind {act : Act ε α} {next : α → Act ε β} {Q : Ending ε β → Books → Prop}
    (h : act.Meets s b (Onward next s Q)) : (act >>= next).Meets s b Q := by
  intro w hw hb
  obtain ⟨hs, hq⟩ := h w hw hb
  rw [bind_run]
  generalize act s w = r at hs hq
  obtain ⟨e, w'⟩ := r
  cases e with
  | done a => exact hq w' hs rfl
  | refused c => exact ⟨hs, hq⟩
  | crashed => exact ⟨hs, hq⟩

theorem mapCause {f : ε → δ} {act : Act ε α} {Q : Ending δ α → Books → Prop}
    (h : act.Meets s b fun e b' => Q (e.mapCause f) b') : (act.mapCause f).Meets s b Q := by
  intro w hw hb
  rw [mapCause_run]
  exact h w hw hb

theorem within {slug description : String} {act : Act Failure α}
    {Q : Ending Failure α → Books → Prop}
    (h : act.Meets s b fun e b' => Q (e.mapCause (Failure.within slug description)) b') :
    (act.within slug description).Meets s b Q := mapCause h

theorem ofRule {e : Except Violation α} {Q : Ending Failure α → Books → Prop}
    (h : Q ((Ending.ofExcept e).mapCause Failure.rule) b) : (Act.ofRule e).Meets s b Q :=
  mapCause (ofExcept h)

theorem settle {act : Act ε α} {Q : Ending δ (Ending ε α) → Books → Prop}
    (h : act.Meets s b fun e b' => Q (.done e) b') :
    (act.settle : Act δ (Ending ε α)).Meets s b Q := h

/-- An act behind a check runs from the same books. -/
theorem bind_ofRule {e : Except Violation α} {next : α → Act Failure β}
    {Q : Ending Failure β → Books → Prop} {slug description : String}
    (herr : ∀ v, e = .error v → Q (.refused (.within slug description (.rule v))) b)
    (hok : ∀ a, e = .ok a → (next a).Meets s b Q) :
    ((Act.ofRule e).within slug description >>= next).Meets s b Q := by
  refine bind (within (ofRule ?_))
  cases e with
  | error v => exact herr v rfl
  | ok a => exact hok a rfl

open Desk in
theorem narrated {o : Operation} {counted : Bool} {body : Act Failure α}
    {Q : Ending Failure α → Books → Prop} (h : body.Meets s b Q) :
    (Desk.narrated o counted body).Meets s b Q := by
  refine bind (note (bind (settle (h.mono ?_))))
  intro e b' hq
  cases e with
  | crashed => exact of_same (fun _ _ => ⟨rfl, rfl⟩) hq
  | done a => cases counted <;> exact of_same (fun _ _ => ⟨rfl, rfl⟩) hq
  | refused f => cases counted <;> exact of_same (fun _ _ => ⟨rfl, rfl⟩) hq

open Desk in
/-- Watching an operation changes neither how it ends nor what it does to the books. -/
theorem watched {o : Operation} {body : Act Failure α} {Q : Ending Failure α → Books → Prop}
    (h : ∀ spans, body.Meets { s with spans := spans } b Q) :
    (Desk.watched o body).Meets s b Q := by
  obtain ⟨now, window, watch, spans, held⟩ := s
  refine bind (setting ?_)
  cases watch with
  | bare => exact h spans
  | silent => exact narrated (h [o.span])
  | full span => exact narrated (h [span, o.span])

end Meets

end Act

end TrainerBooking
