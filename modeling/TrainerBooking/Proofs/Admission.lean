import Mathlib.Data.List.Nodup
import TrainerBooking.Proofs.Runs
import TrainerBooking.Web.Service

/-! # Who is let in

A call presents a caller (`Call.Presents`) if its three identity headers are there, can be read,
name a role that exists, and hold an identifier and a name that are not blank.  Every call that
presents nobody has one of four flaws (`Call.Anonymous`, `Call.anonymous_iff`).

* **The session stands first.** At every endpoint but the one for the health of the program, the
  answer is worked out from a session (`answerAt_of_session`), so nothing else of the call is looked
  at before the session has begun.  `Session.begin` lets in the caller that the call presents, and
  nobody else (`Session.begin_keeps`).
* **The role comes before the action.** Where an endpoint is reserved for one role
  (`Endpoint.reservedFor?`), the caller of another one is turned away, whatever else is wrong with
  the call (`answerAt_barred`).

Acts that only look are described by `Act.Keeps`: the store is the same one afterwards, in whatever
state it is. -/

namespace TrainerBooking

/-! ### Acts that only look -/

namespace Act

variable {ε δ α β : Type} {s : Setting}

/-- The act leaves the store as it is, and `Q` holds of how it ends. -/
def Keeps (act : Act ε α) (s : Setting) (Q : Ending ε α → Prop) : Prop :=
  ∀ w : World, (act s w).2.store = w.store ∧ Q (act s w).1

/-- What the first of two acts has to end with, for the second to keep the store and meet `Q`. -/
def KeepsOn (next : α → Act ε β) (s : Setting) (Q : Ending ε β → Prop) : Ending ε α → Prop
  | .done a => (next a).Keeps s Q
  | .refused c => Q (.refused c)
  | .crashed => Q .crashed

theorem KeepsOn.of_done {next : α → Act ε β} {Q : Ending ε β → Prop} {a : α}
    (h : (next a).Keeps s Q) : KeepsOn next s Q (.done a) := h

namespace Keeps

theorem mono {act : Act ε α} {Q R : Ending ε α → Prop} (h : act.Keeps s Q) (hQ : ∀ e, Q e → R e) :
    act.Keeps s R := fun w => ⟨(h w).1, hQ _ (h w).2⟩

theorem refuse {c : ε} {Q : Ending ε α → Prop} (h : Q (.refused c)) :
    (Act.refuse c : Act ε α).Keeps s Q := fun _ => ⟨rfl, h⟩

theorem ofExcept {e : Except ε α} {Q : Ending ε α → Prop} (h : Q (Ending.ofExcept e)) :
    (Act.ofExcept e).Keeps s Q := fun _ => ⟨rfl, h⟩

theorem pure {a : α} {Q : Ending ε α → Prop} (h : Q (.done a)) :
    (Pure.pure a : Act ε α).Keeps s Q := fun _ => ⟨rfl, h⟩

theorem note {l : Level} {m : String} {fields : List (String × FieldValue)}
    {Q : Ending ε Unit → Prop} (h : Q (.done ())) : (Act.note l m fields : Act ε Unit).Keeps s Q :=
  fun _ => ⟨rfl, h⟩

theorem mapCause {f : ε → δ} {act : Act ε α} {Q : Ending δ α → Prop}
    (h : act.Keeps s fun e => Q (e.mapCause f)) : (act.mapCause f).Keeps s Q := h

theorem settle {act : Act ε α} {Q : Ending δ (Ending ε α) → Prop}
    (h : act.Keeps s fun e => Q (.done e)) : (act.settle : Act δ (Ending ε α)).Keeps s Q := h

theorem bind {act : Act ε α} {next : α → Act ε β} {Q : Ending ε β → Prop}
    (h : act.Keeps s (KeepsOn next s Q)) : (act >>= next).Keeps s Q := by
  intro w
  obtain ⟨hstore, hq⟩ := h w
  rw [bind_run]
  generalize act s w = r at hstore hq
  obtain ⟨e, w'⟩ := r
  cases e with
  | done a =>
      obtain ⟨hstore', hq'⟩ := hq w'
      exact ⟨hstore'.trans hstore, hq'⟩
  | refused c => exact ⟨hstore, hq⟩
  | crashed => exact ⟨hstore, hq⟩

/-- An act goes on after an event has been written. -/
theorem noted {l : Level} {m : String} {fields : List (String × FieldValue)}
    {next : Unit → Act ε β} {Q : Ending ε β → Prop} (h : (next ()).Keeps s Q) :
    ((Act.note l m fields : Act ε Unit) >>= next).Keeps s Q := bind (note h)

end Keeps

end Act

namespace Web

/-! ### Callers that calls present -/

/-- The headers on which the identity of a caller depends. -/
def Session.headers : List String := [idHeader, roleHeader, nameHeader]

namespace Call

/-- The header is there with this value, and can be read. -/
structure Holds (call : Call) (header value : String) : Prop where
  present : call.header? header = some value
  readable : isReadableHeader value = true

/-- The call presents the caller. -/
structure Presents (call : Call) (caller : Caller) : Prop where
  id : call.Holds Session.idHeader caller.id
  role : call.Holds Session.roleHeader caller.role.label
  name : call.Holds Session.nameHeader caller.name
  id_spoken : Text.isBlank caller.id = false
  name_spoken : Text.isBlank caller.name = false

/-- The call presents nobody: a header is missing, cannot be read, names no role, or is blank. -/
inductive Anonymous (call : Call) : Prop where
  | missing {header : String} (hmem : header ∈ Session.headers) (h : call.header? header = none)
  | unreadable {header value : String} (hmem : header ∈ Session.headers)
      (h : call.header? header = some value) (hread : isReadableHeader value = false)
  | unknownRole {value : String} (h : call.header? Session.roleHeader = some value)
      (hrole : ∀ role : Role, value ≠ role.label)
  | blank {header value : String} (hmem : header ∈ [Session.idHeader, Session.nameHeader])
      (h : call.header? header = some value) (hblank : Text.isBlank value = true)

variable {call : Call} {caller : Caller}

theorem Holds.unique {header value value' : String} (h : call.Holds header value)
    (h' : call.Holds header value') : value = value' :=
  Option.some_inj.mp (h.present.symm.trans h'.present)

/-- A call presents one caller at most. -/
theorem Presents.unique {caller' : Caller} (h : call.Presents caller)
    (h' : call.Presents caller') : caller = caller' := by
  have hid : caller.id = caller'.id := h.id.unique h'.id
  have hname : caller.name = caller'.name := h.name.unique h'.name
  have hlabel : caller.role.label = caller'.role.label := h.role.unique h'.role
  have hrole : caller.role = caller'.role := by
    rw [← Option.some_inj, ← Role.ofLabel?_label, ← Role.ofLabel?_label caller'.role, hlabel]
  cases caller
  cases caller'
  simp_all only

/-- A call that presents a caller has no flaw. -/
theorem Presents.not_anonymous (h : call.Presents caller) : ¬ call.Anonymous := by
  have hheld : ∀ header ∈ Session.headers, ∃ value, call.Holds header value := by
    intro header hmem
    simp only [Session.headers, List.mem_cons, List.not_mem_nil, or_false] at hmem
    obtain rfl | rfl | rfl := hmem
    · exact ⟨_, h.id⟩
    · exact ⟨_, h.role⟩
    · exact ⟨_, h.name⟩
  rintro (⟨hmem, hnone⟩ | ⟨hmem, hsome, hread⟩ | ⟨hsome, hrole⟩ | ⟨hmem, hsome, hblank⟩)
  · obtain ⟨value, hvalue⟩ := hheld _ hmem
    rw [hvalue.present] at hnone
    cases hnone
  · obtain ⟨value, hvalue⟩ := hheld _ hmem
    obtain rfl : value = _ := Option.some_inj.mp (hvalue.present.symm.trans hsome)
    rw [hvalue.readable] at hread
    cases hread
  · exact hrole caller.role (Option.some_inj.mp (hsome.symm.trans h.role.present))
  · simp only [List.mem_cons, List.not_mem_nil, or_false] at hmem
    obtain rfl | rfl := hmem
    · obtain rfl : caller.id = _ := Option.some_inj.mp (h.id.present.symm.trans hsome)
      rw [h.id_spoken] at hblank
      cases hblank
    · obtain rfl : caller.name = _ := Option.some_inj.mp (h.name.present.symm.trans hsome)
      rw [h.name_spoken] at hblank
      cases hblank

end Call

/-! ### Sessions -/

/-- What looking at the identity ends with: something that `P` holds of, or a refusal because the
call presents nobody. -/
inductive Call.Admits (call : Call) {α : Type} (P : α → Prop) : Ending Stop α → Prop where
  | admitted {a : α} (h : P a) : call.Admits P (.done a)
  | turnedAway (reason : String) (h : call.Anonymous) :
      call.Admits P (.refused (Session.denied reason))

variable {call : Call} {s : Setting}

/-- Two acts that look at the identity, one after the other. -/
theorem Call.Admits.bind {α β : Type} {P : α → Prop} {R : β → Prop} {act : Act Stop α}
    {next : α → Act Stop β} (h : act.Keeps s (call.Admits P))
    (hnext : ∀ a, P a → (next a).Keeps s (call.Admits R)) :
    (act >>= next).Keeps s (call.Admits R) := by
  refine .bind (h.mono ?_)
  rintro _ (ha | ⟨reason, hanonymous⟩)
  · exact hnext _ ha
  · exact .turnedAway reason hanonymous

namespace Session

/-- A header of the identity is handed on if it can be read; otherwise nobody is let in. -/
theorem identityHeader_keeps {header : String} (hmem : header ∈ Session.headers) :
    (identityHeader header call).Keeps s (call.Admits (call.Holds header)) := by
  unfold identityHeader
  cases hvalue : call.header? header with
  | none => exact .noted (.refuse (.turnedAway _ (.missing hmem hvalue)))
  | some value =>
      cases hread : isReadableHeader value with
      | true =>
          simp only [hread, if_true]
          exact .pure (.admitted ⟨hvalue, hread⟩)
      | false =>
          simp only [hread, Bool.false_eq_true, if_false]
          exact .noted (.refuse (.turnedAway _ (.unreadable hmem hvalue hread)))

/-- The three texts make a caller if they present one. -/
theorem authenticate_cases {id role name : String} (hid : call.Holds idHeader id)
    (hrole : call.Holds roleHeader role) (hname : call.Holds nameHeader name) :
    (∃ caller, Identity.authenticate id role name = .ok caller ∧ call.Presents caller) ∨
      (∃ fault, Identity.authenticate id role name = .error fault) ∧ call.Anonymous := by
  unfold Identity.authenticate Caller.new
  cases hblank : Text.isBlank id with
  | true => exact .inr ⟨⟨_, rfl⟩, .blank List.mem_cons_self hid.present hblank⟩
  | false =>
      cases hr : Role.ofLabel? role with
      | none => exact .inr ⟨⟨_, rfl⟩, .unknownRole hrole.present (Role.ofLabel?_eq_none.mp hr)⟩
      | some r =>
          cases hblank' : Text.isBlank name with
          | true =>
              have hmem : nameHeader ∈ [idHeader, nameHeader] := .tail _ List.mem_cons_self
              exact .inr ⟨⟨_, rfl⟩, .blank hmem hname.present hblank'⟩
          | false =>
              have hlabel : call.Holds roleHeader r.label := Role.label_of_ofLabel? hr ▸ hrole
              exact .inl ⟨⟨id, r, name⟩, rfl, hid, hlabel, hname, hblank, hblank'⟩

/-- A session begins for the caller that the call presents, and for nobody else. -/
theorem begin_keeps :
    (Session.begin call).Keeps s (call.Admits fun session => call.Presents session.caller) := by
  have hmem : idHeader ∈ headers ∧ roleHeader ∈ headers ∧ nameHeader ∈ headers := by decide
  refine Call.Admits.bind (identityHeader_keeps hmem.1) fun id hid => ?_
  refine Call.Admits.bind (identityHeader_keeps hmem.2.1) fun role hrole => ?_
  refine Call.Admits.bind (identityHeader_keeps hmem.2.2) fun name hname => ?_
  obtain ⟨caller, hok, hcaller⟩ | ⟨⟨fault, herror⟩, hanonymous⟩ :=
    authenticate_cases hid hrole hname
  · rw [hok]
    exact .noted (.pure (.admitted hcaller))
  · rw [herror]
    exact .noted (.refuse (.turnedAway _ hanonymous))

end Session

/-- A call that has none of the flaws presents a caller. -/
theorem Call.anonymous_iff : call.Anonymous ↔ ∀ caller, ¬ call.Presents caller := by
  constructor
  · exact fun hanonymous caller hpresents => hpresents.not_anonymous hanonymous
  · intro hnobody
    by_contra hnot
    have hheld : ∀ header ∈ Session.headers, ∃ value, call.Holds header value := by
      intro header hmem
      cases hvalue : call.header? header with
      | none => exact absurd (.missing hmem hvalue) hnot
      | some value =>
          cases hread : isReadableHeader value with
          | true => exact ⟨value, hvalue, hread⟩
          | false => exact absurd (.unreadable hmem hvalue hread) hnot
    obtain ⟨id, hid⟩ := hheld Session.idHeader (by decide)
    obtain ⟨role, hrole⟩ := hheld Session.roleHeader (by decide)
    obtain ⟨name, hname⟩ := hheld Session.nameHeader (by decide)
    obtain ⟨caller, -, hpresents⟩ | ⟨-, hanonymous⟩ := Session.authenticate_cases hid hrole hname
    · exact hnobody caller hpresents
    · exact hnot hanonymous

/-! ### Endpoints -/

/-- The call asks for the endpoint. -/
def Call.AsksFor (call : Call) (endpoint : Endpoint) : Prop :=
  (call.lookupMethod, endpoint) ∈ Endpoint.under call.segments

/-- The one role whose callers may use the endpoint; there is none if both may. -/
def Endpoint.reservedFor? : Endpoint → Option Role
  | makeHoursAvailable | makeHoursUnavailable | createUser | changeBalance _ => some .trainer
  | createTraining => some .attendee
  | _ => none

/-- The methods under a path are different ones. -/
theorem Endpoint.under_nodup (segments : List String) :
    ((under segments).map Prod.fst).Nodup := by
  unfold under
  split
  case h_9 segment rest =>
    unfold ofTraining
    repeat' split
    all_goals simp
  case h_10 segment rest =>
    unfold ofUser
    split
    all_goals simp
  all_goals simp

/-- A call asks for one endpoint at most. -/
theorem Call.AsksFor.unique {endpoint endpoint' : Endpoint} (h : call.AsksFor endpoint)
    (h' : call.AsksFor endpoint') : endpoint = endpoint' :=
  (Prod.mk.inj (List.inj_on_of_nodup_map (Endpoint.under_nodup _) h h' rfl)).2

/-- The three ways to look up a call: its path is not known, its path does not offer its method, or
it asks for an endpoint. -/
theorem dispatch_cases (fresh : String) (call : Call) :
    (Endpoint.under call.segments = [] ∧ dispatch fresh call = Act.refuse (.unfit 404)) ∨
    (Endpoint.under call.segments ≠ [] ∧
      (∀ e ∈ Endpoint.under call.segments, e.1 ≠ call.lookupMethod) ∧
      dispatch fresh call = Act.refuse (.unfit 405)) ∨
    ∃ endpoint, call.AsksFor endpoint ∧ dispatch fresh call = answerAt fresh call endpoint := by
  unfold dispatch Call.AsksFor
  cases hunder : Endpoint.under call.segments with
  | nil => exact .inl ⟨rfl, rfl⟩
  | cons first rest =>
      refine .inr ?_
      cases hfind : (first :: rest).find? fun e => e.1 == call.lookupMethod with
      | none =>
          have hnone := List.find?_eq_none.mp hfind
          exact .inl ⟨nofun, fun e he heq => hnone e he (beq_iff_eq.mpr heq), by simp only [hfind]⟩
      | some found =>
          obtain ⟨method, endpoint⟩ := found
          have hmethod : method = call.lookupMethod := by
              simpa using List.find?_some hfind
          have hmem := List.mem_of_find?_eq_some hfind
          exact .inr ⟨endpoint, hmethod ▸ hmem, by simp only [hfind]⟩

/-! ### Nobody is let in -/

/-- At every endpoint but one the answer is worked out from a session. -/
theorem answerAt_of_session (fresh : String) (call : Call) {endpoint : Endpoint}
    (h : endpoint ≠ .health) :
    ∃ next : Session → Act Stop Answer,
      answerAt fresh call endpoint = Session.begin call >>= next := by
  cases endpoint with
  | health => exact absurd rfl h
  | _ => exact ⟨_, rfl⟩

/-- Without a session, an endpoint refuses the call. -/
theorem answerAt_anonymous (fresh : String) {endpoint : Endpoint} (h : endpoint ≠ .health)
    (hanonymous : call.Anonymous) :
    (answerAt fresh call endpoint).Keeps s fun e =>
      ∃ reason, e = .refused (Session.denied reason) := by
  obtain ⟨next, hnext⟩ := answerAt_of_session fresh call h
  rw [hnext]
  refine .bind (Session.begin_keeps.mono ?_)
  rintro _ (hcaller | ⟨reason, _⟩)
  · exact absurd hanonymous hcaller.not_anonymous
  · exact ⟨reason, rfl⟩

/-! ### The role is not the one -/

/-- The status of the answer to a call that cannot go on. -/
def Stop.status : Stop → Nat
  | .unfit status => status
  | .refused refusal => refusal.status

/-- The computation is stopped, and the answer says that the call was at fault. -/
def Stopped {α : Type} (e : Ending Stop α) : Prop :=
  ∃ stop : Stop, e = .refused stop ∧ 400 ≤ stop.status

/-- An act that only looks, before one that is stopped. -/
theorem Stopped.after {α β : Type} {act : Act Stop α} {next : α → Act Stop β}
    (h : act.Keeps s fun e => (∃ a, e = .done a) ∨ Stopped e)
    (hnext : ∀ a, (next a).Keeps s Stopped) : (act >>= next).Keeps s Stopped := by
  refine .bind (h.mono ?_)
  rintro _ (⟨a, rfl⟩ | ⟨stop, rfl, hstatus⟩)
  · exact hnext a
  · exact ⟨stop, rfl, hstatus⟩

/-- An act that is stopped, before any other. -/
theorem Stopped.before {α β : Type} {act : Act Stop α} {next : α → Act Stop β}
    (h : act.Keeps s Stopped) : (act >>= next).Keeps s Stopped := by
  refine .bind (h.mono ?_)
  rintro _ ⟨stop, rfl, hstatus⟩
  exact ⟨stop, rfl, hstatus⟩

theorem readSegment_keeps (segment : String) :
    (readSegment segment).Keeps s fun e => (∃ id, e = .done id) ∨ Stopped e := by
  unfold readSegment
  split
  · exact .pure (.inl ⟨_, rfl⟩)
  · exact .refuse (.inr ⟨_, rfl, by decide⟩)

theorem readBody_keeps {α : Type} (read : Draft → Except Unfit α) :
    (readBody read call).Keeps s fun e => (∃ r, e = .done r) ∨ Stopped e := by
  unfold readBody
  repeat' split
  any_goals exact .refuse (.inr ⟨_, rfl, by decide⟩)
  exact .pure (.inl ⟨_, rfl⟩)

/-- An action that asks for another role than the caller's is stopped. -/
theorem carryOut_require {α : Type} {role : Role} {caller : Caller} {action : String}
    {act : Unit → Act Refusal α} (h : caller.role ≠ role) :
    (carryOut (Api.require role caller action >>= act)).Keeps s Stopped := by
  refine .mapCause (.bind (.mapCause (.ofExcept ?_)))
  rw [Identity.require, if_neg h]
  exact ⟨_, rfl, (by decide : 400 ≤ 403)⟩

/-- Where an endpoint is reserved for another role, the caller is stopped. -/
theorem answerAt_barred (fresh : String) {endpoint : Endpoint} {caller : Caller} {role : Role}
    (hcaller : call.Presents caller) (hreserved : endpoint.reservedFor? = some role)
    (hrole : caller.role ≠ role) : (answerAt fresh call endpoint).Keeps s Stopped := by
  have hsession : ∀ {next : Session → Act Stop Answer},
      (∀ session : Session, session.caller.role ≠ role → (next session).Keeps s Stopped) →
      (Session.begin call >>= next).Keeps s Stopped := by
    intro next hnext
    refine .bind (Session.begin_keeps.mono ?_)
    rintro _ (hpresents | ⟨_, hanonymous⟩)
    · exact hnext _ (hcaller.unique hpresents ▸ hrole)
    · exact absurd hanonymous hcaller.not_anonymous
  cases endpoint
  all_goals cases hreserved
  case changeBalance segment =>
    refine hsession fun session h => Stopped.after (readSegment_keeps segment) fun id => ?_
    refine Stopped.after (readBody_keeps _) fun r => .noted ?_
    exact Stopped.before (carryOut_require h)
  all_goals
    refine hsession fun session h => Stopped.after (readBody_keeps _) fun r => .noted ?_
    exact Stopped.before (carryOut_require h)

/-! ### Answers -/

/-- How a call is answered that presents nobody. -/
inductive Call.Dismissed (call : Call) : Answer → Prop where
  | unknownPath (h : Endpoint.under call.segments = []) : call.Dismissed (.bare 404)
  | methodNotOffered (hpath : Endpoint.under call.segments ≠ [])
      (h : ∀ e ∈ Endpoint.under call.segments, e.1 ≠ call.lookupMethod) :
      call.Dismissed (.bare 405)
  | health (h : call.AsksFor .health) :
      call.Dismissed (.shown (.object [("status", .string "ok")]))
  | notAuthenticated {endpoint : Endpoint} (reason : String) (h : call.AsksFor endpoint)
      (hhealth : endpoint ≠ .health) : call.Dismissed (.refused (.authenticationFailed reason))

/-- What is refused is answered with the refusal. -/
theorem answerRefusal_keeps {ε : Type} (r : Refusal) :
    (answerRefusal r : Act ε Answer).Keeps s (· = .done (.refused r)) := by
  unfold answerRefusal
  split
  · exact .noted (.pure rfl)
  · exact .noted (.pure rfl)

/-- How the ending of a call becomes its answer, up to the body that `HEAD` does not ask for. -/
theorem answer_keeps {ε : Type} (fresh : String) {P : Answer → Prop}
    (h : (dispatch fresh call).Keeps s fun e =>
      (∃ a, e = .done a ∧ P a) ∨ (∃ status, e = .refused (.unfit status) ∧ P (.bare status)) ∨
        ∃ r, e = .refused (.refused r) ∧ P (.refused r)) :
    (answer fresh call : Act ε Answer).Keeps s fun e =>
      ∃ a, e = .done (if call.isHead then .bare a.status else a) ∧ P a := by
  have hfully :
      (answerFully fresh call : Act ε Answer).Keeps s fun e => ∃ a, e = .done a ∧ P a := by
    refine .bind (.settle (h.mono ?_))
    rintro _ (⟨a, rfl, ha⟩ | ⟨status, rfl, ha⟩ | ⟨r, rfl, ha⟩)
    · exact .of_done (.pure ⟨a, rfl, ha⟩)
    · exact .of_done (.pure ⟨_, rfl, ha⟩)
    · exact .of_done ((answerRefusal_keeps r).mono fun e he => ⟨_, he, ha⟩)
  refine .bind (hfully.mono ?_)
  rintro _ ⟨a, rfl, ha⟩
  exact .of_done (.pure ⟨a, rfl, ha⟩)

/-- **Nobody gets anywhere without an identity, and nobody where another role is asked for.**  A
call that presents nobody leaves the store as it is, and is answered in one of four ways: its path
is not known, its path does not offer its method, it asks for the health of the program, or it is
told that it is not authenticated; whatever the rest of the call is like.  A call that presents a
caller, at an endpoint that is reserved for the other role, leaves the store as it is and fails. -/
theorem answer_gated {ε : Type} (fresh : String) (call : Call) (s : Setting) (w : World) :
    (call.Anonymous →
      (answer fresh call s w : Ending ε Answer × World).2.store = w.store ∧
      ∃ a, (answer fresh call s w : Ending ε Answer × World).1 =
        .done (if call.isHead then .bare a.status else a) ∧ call.Dismissed a) ∧
    ∀ {caller : Caller} {endpoint : Endpoint} {role : Role},
      call.Presents caller → call.AsksFor endpoint → endpoint.reservedFor? = some role →
      caller.role ≠ role →
      (answer fresh call s w : Ending ε Answer × World).2.store = w.store ∧
      ∃ a, (answer fresh call s w : Ending ε Answer × World).1 =
        .done (if call.isHead then .bare a.status else a) ∧ 400 ≤ a.status := by
  constructor
  · intro hanonymous
    refine answer_keeps fresh ?_ w
    obtain ⟨hpath, heq⟩ | ⟨hpath, hmethod, heq⟩ | ⟨endpoint, hasks, heq⟩ :=
      dispatch_cases fresh call
    · rw [heq]
      exact .refuse (.inr (.inl ⟨404, rfl, .unknownPath hpath⟩))
    · rw [heq]
      exact .refuse (.inr (.inl ⟨405, rfl, .methodNotOffered hpath hmethod⟩))
    · rw [heq]
      by_cases hhealth : endpoint = .health
      · subst hhealth
        exact .pure (.inl ⟨_, rfl, .health hasks⟩)
      · refine (answerAt_anonymous fresh hhealth hanonymous).mono ?_
        rintro _ ⟨reason, rfl⟩
        exact .inr (.inr ⟨_, rfl, .notAuthenticated reason hasks hhealth⟩)
  · intro caller endpoint role hpresents hasks hreserved hrole
    refine answer_keeps fresh ?_ w
    obtain ⟨hpath, -⟩ | ⟨-, hmethod, -⟩ | ⟨endpoint', hasks', heq⟩ := dispatch_cases fresh call
    · rw [Call.AsksFor, hpath] at hasks
      cases hasks
    · exact absurd rfl (hmethod _ hasks)
    · rw [heq, ← hasks.unique hasks']
      refine (answerAt_barred fresh hpresents hreserved hrole).mono ?_
      rintro _ ⟨stop, rfl, hstatus⟩
      cases stop with
      | unfit status => exact .inr (.inl ⟨status, rfl, hstatus⟩)
      | refused r => exact .inr (.inr ⟨r, rfl, hstatus⟩)

namespace Sample

/-- Somebody with a role that does not exist moves a training; the identifier and the body are
malformed, too. -/
def stranger : Call :=
  ⟨"PUT", "/trainings/%ff/reschedule",
    [("X-User-Id", "a"), ("X-User-Role", "boss"), ("X-User-Name", "Ann")], "[", none⟩

/-- Ann closes noon. -/
def closing : Call :=
  ⟨"PUT", "/trainer/calendar/make-hours-unavailable",
    [("x-user-id", "a"), ("x-user-role", "attendee"), ("x-user-name", "Ann"),
      ("content-type", "application/json")], "[\"2030-01-02T12:00:00Z\"]", none⟩

end Sample

open TrainerBooking.Sample in
theorem gated_stranger_and_ann :
    let s := Setting.outer newYear .standard .bare
    let w := (play []).2
    (Sample.stranger.Anonymous ∧
      (answer "n" Sample.stranger s w : Ending Unit Answer × World).2.store = w.store) ∧
    Sample.closing.Presents ann ∧ Sample.closing.AsksFor .makeHoursUnavailable ∧
      (answer "n" Sample.closing s w : Ending Unit Answer × World).2.store = w.store := by
  intro s w
  have hstranger : Sample.stranger.Anonymous := by
    have hboss : Sample.stranger.header? Session.roleHeader = some "boss" := by decide
    exact .unknownRole hboss fun role => by cases role <;> decide
  have hpresents : Sample.closing.Presents ann :=
    ⟨⟨by decide, by decide⟩, ⟨by decide, by decide⟩, ⟨by decide, by decide⟩, by decide, by decide⟩
  have hasks : Sample.closing.AsksFor .makeHoursUnavailable := by
    unfold Call.AsksFor
    decide
  have hgated := answer_gated (ε := Unit) "n" Sample.stranger s w
  have hgated' := answer_gated (ε := Unit) "n" Sample.closing s w
  exact ⟨⟨hstranger, (hgated.1 hstranger).1⟩, hpresents, hasks,
    (hgated'.2 hpresents hasks rfl (by decide)).1⟩

end Web

end TrainerBooking
