import TrainerBooking.Api
import TrainerBooking.Web.Exchange

/-! # Annotations never change what a client is told went wrong

A failure goes through three translations before a client sees it: annotations are put around it, it
becomes a `Refusal`, and the refusal becomes an answer over HTTP.  Here the three are shown to fit
together.

* **Every failure is its root under its layers** (`Failure.under_layers`), and a layer adds nothing
  but its text in front of the message (`Failure.message_under`).
* **Annotating and translating commute:** the refusal of an annotated failure is the refusal of the
  failure with that text in front of its message (`Refusal.ofFailure_within`), for a whole stack of
  layers (`Refusal.ofFailure_under`) and for an operation as it runs (`Api.operation_within`).
* **The root decides** status, slug and the advice to try again; `Failure.Told` lists how, and
  `Failure.told_by_root` states it of every failure. -/

namespace TrainerBooking

namespace Failure

/-! ### Layers -/

/-- The annotations of a failure, each with its slug and its text, from the outside in. -/
def layers : Failure → List (String × String)
  | within slug description source => (slug, description) :: source.layers
  | rule _ | missing _ _ | storage _ => []

/-- A failure under more annotations, of which the first is the outermost. -/
def under (layers : List (String × String)) (f : Failure) : Failure :=
  layers.foldr (fun layer source => within layer.1 layer.2 source) f

@[simp] theorem under_nil (f : Failure) : f.under [] = f := rfl

@[simp] theorem under_cons (layer : String × String) (layers : List (String × String))
    (f : Failure) : f.under (layer :: layers) = within layer.1 layer.2 (f.under layers) := rfl

theorem under_layers (f : Failure) : f.root.under f.layers = f := by
  induction f with
  | within slug description source ih => exact congrArg (within slug description) ih
  | _ => rfl

@[simp] theorem layers_root (f : Failure) : f.root.layers = [] := by
  induction f with
  | within _ _ _ ih => exact ih
  | _ => rfl

@[simp] theorem root_under (layers : List (String × String)) (f : Failure) :
    (f.under layers).root = f.root := by
  induction layers with
  | nil => rfl
  | cons layer layers ih => exact ih

theorem message_under (layers : List (String × String)) (f : Failure) :
    (f.under layers).message
      = layers.foldr (fun layer text => layer.2 ++ ": " ++ text) f.message := by
  induction layers with
  | nil => rfl
  | cons layer layers ih =>
      rw [under_cons, List.foldr_cons, ← ih]
      rfl

/-- Two failures go wrong in the same way: their roots agree in all that programs look at. -/
structure SameCause (f g : Failure) : Prop where
  kind : f.kind = g.kind
  slug : f.slug = g.slug
  /-- They violate the same rule, or neither violates any. -/
  violation : f.violation? = g.violation?
  /-- They can be tried again, or neither can. -/
  retryable : f.retryable = g.retryable

theorem SameCause.of_root {f g : Failure} (h : f.root = g.root) : f.SameCause g where
  kind := by rw [← kind_root f, h, kind_root]
  slug := by rw [← slug_root f, h, slug_root]
  violation := by rw [← violation?_root f, h, violation?_root]
  retryable := by rw [← retryable_root f, h, retryable_root]

/-- Trying again helps only where the storage failed. -/
theorem kind_of_retryable {f : Failure} (h : f.retryable = true) : f.kind = .infrastructure := by
  induction f with
  | within _ _ _ ih => exact ih h
  | storage fault => cases fault <;> first | rfl | cases h
  | rule _ => cases h
  | missing _ _ => cases h

/-- What does not exist has one slug, whatever it is. -/
theorem slug_of_notFound {f : Failure} (h : f.kind = .notFound) : f.slug = "not-found" := by
  induction f with
  | within _ _ _ ih => exact ih h
  | missing _ _ => rfl
  | rule v => cases v <;> cases h
  | storage fault => cases fault <;> cases h

end Failure

namespace Refusal

/-! ### Annotated refusals -/

/-- The refusal with a text in front of its message; its variant, its rule and the entity that it
speaks of stay. -/
def within (description : String) : Refusal → Refusal
  | authenticationFailed reason => authenticationFailed (description ++ ": " ++ reason)
  | unauthorized action requiredRole => unauthorized action requiredRole
  | forbidden rule message => forbidden rule (description ++ ": " ++ message)
  | invalidInput field message => invalidInput field (description ++ ": " ++ message)
  | ruleViolation rule message => ruleViolation rule (description ++ ": " ++ message)
  | conflict rule message => conflict rule (description ++ ": " ++ message)
  | notFound resource message => notFound resource (description ++ ": " ++ message)
  | unavailable rule message => unavailable rule (description ++ ": " ++ message)
  | internal message => internal (description ++ ": " ++ message)

@[simp] theorem status_within (description : String) (r : Refusal) :
    (r.within description).status = r.status := by cases r <;> rfl

@[simp] theorem slug_within (description : String) (r : Refusal) :
    (r.within description).slug = r.slug := by cases r <;> rfl

@[simp] theorem retryable_within (description : String) (r : Refusal) :
    (r.within description).retryable = r.retryable := by cases r <;> rfl

theorem missingResource_within (slug description : String) (f : Failure) :
    missingResource (.within slug description f) = missingResource f := by
  rw [missingResource, Failure.root_within, missingResource]

/-- **An annotation reaches the client as a text in front of the message, and as nothing else.** -/
theorem ofFailure_within (slug description : String) (f : Failure) :
    ofFailure (.within slug description f) = (ofFailure f).within description := by
  have same : (Failure.within slug description f).SameCause f := .of_root (Failure.root_within ..)
  rw [ofFailure, ofFailure, same.kind, same.slug, same.retryable, missingResource_within]
  cases f.kind with
  | infrastructure => cases f.retryable <;> rfl
  | _ => rfl

/-- A stack of annotations, too. -/
theorem ofFailure_under (layers : List (String × String)) (f : Failure) :
    ofFailure (f.under layers) = layers.foldr (fun layer r => r.within layer.2) (ofFailure f) := by
  induction layers with
  | nil => rfl
  | cons layer layers ih => rw [Failure.under_cons, ofFailure_within, ih, List.foldr_cons]

end Refusal

/-- To annotate an operation is to put the text in front of what its caller is told. -/
theorem Api.operation_within {α : Type} (slug description : String) (act : Act Failure α) :
    Api.operation (act.within slug description)
      = (Api.operation act).mapCause (Refusal.within description) := by
  funext s w
  simp only [operation, Act.within, Act.mapCause]
  cases (act s w).1 with
  | refused f => simp only [Ending.mapCause, Refusal.ofFailure_within]
  | _ => rfl

/-! ### The refusal of a failure, read off its root -/

/-- The status for a kind of failure. -/
def FailureKind.status (kind : FailureKind) (retryable : Bool) : Nat :=
  match kind with
  | .validation => 400
  | .conflict => 409
  | .notFound => 404
  | .authorization => 403
  | .infrastructure => if retryable then 503 else 500

/-- The status tells the kinds apart, and what can be tried again from what cannot. -/
theorem FailureKind.status_tells (kind : FailureKind) (retryable : Bool)
    (helps : retryable = true → kind = .infrastructure) :
    (kind.status retryable = 503 ↔ retryable = true)
      ∧ (kind.status retryable = 500 ↔ kind = .infrastructure ∧ retryable = false)
      ∧ (kind.status retryable = 400 ↔ kind = .validation)
      ∧ (kind.status retryable = 409 ↔ kind = .conflict)
      ∧ (kind.status retryable = 404 ↔ kind = .notFound)
      ∧ (kind.status retryable = 403 ↔ kind = .authorization) := by
  cases kind <;> cases retryable <;> simp [status] at helps ⊢

namespace Refusal

theorem status_ofFailure (f : Failure) : (ofFailure f).status = f.kind.status f.retryable := by
  unfold ofFailure
  cases f.kind with
  | infrastructure => cases f.retryable <;> rfl
  | _ => rfl

theorem retryable_ofFailure (f : Failure) : (ofFailure f).retryable = f.retryable := by
  cases h : f.retryable with
  | true => rw [ofFailure, Failure.kind_of_retryable h, h]; rfl
  | false =>
      unfold ofFailure
      rw [h]
      cases f.kind <;> rfl

theorem slug_ofFailure (f : Failure) :
    (ofFailure f).slug =
      if f.kind = .infrastructure ∧ f.retryable = false then "internal-error" else f.slug := by
  unfold ofFailure
  cases hk : f.kind with
  | infrastructure => cases f.retryable <;> rfl
  | notFound => exact (Failure.slug_of_notFound hk).symm
  | _ => rfl

end Refusal

namespace Failure

/-! ### What a client is told -/

/-- What a client is told of a failure: the slug and the advice of the refusal, the status and the
body of the answer.  All but the message is read off the root. -/
structure Told (f : Failure) (r : Refusal) (answer : Web.Answer) : Prop where
  /-- The rule that failed is named, unless the storage failed for good. -/
  slug : r.slug =
    if f.root.kind = .infrastructure ∧ f.root.retryable = false then "internal-error" else f.slug
  /-- The advice to try again is that of the failure. -/
  retryable : r.retryable = f.retryable
  /-- The body has the slug, the message and the advice. -/
  body : answer.body = some (.object [("error", .bool true), ("slug", .string r.slug),
    ("message", .string r.message), ("retryable", .bool f.retryable)])
  /-- The service is unavailable exactly if trying again can help. -/
  unavailable : answer.status = 503 ↔ f.retryable = true
  /-- The server is at fault exactly if the storage failed for good. -/
  failed : answer.status = 500 ↔ f.root.kind = .infrastructure ∧ f.root.retryable = false
  /-- What breaks a rule as it stands is a bad request. -/
  badRequest : answer.status = 400 ↔ f.root.kind = .validation
  /-- What does not fit the present state is a conflict. -/
  conflict : answer.status = 409 ↔ f.root.kind = .conflict
  /-- What does not exist is not found. -/
  notFound : answer.status = 404 ↔ f.root.kind = .notFound
  /-- What the caller may not see is forbidden. -/
  forbidden : answer.status = 403 ↔ f.root.kind = .authorization

theorem told (f : Failure) :
    f.Told (Refusal.ofFailure f) (Web.Answer.refused (Refusal.ofFailure f)) := by
  have status : (Web.Answer.refused (Refusal.ofFailure f)).status = f.kind.status f.retryable :=
    Refusal.status_ofFailure f
  have advice := Refusal.retryable_ofFailure f
  obtain ⟨unavailable, failed, badRequest, conflict, notFound, forbidden⟩ :=
    FailureKind.status_tells f.kind f.retryable kind_of_retryable
  constructor
  case slug =>
    rw [kind_root, retryable_root]
    exact Refusal.slug_ofFailure f
  case retryable => exact advice
  case body => rw [Web.Answer.refused, advice]
  all_goals
    rw [status]
    simpa only [kind_root, retryable_root]

/-- **A layer more changes nothing but the message, and the root decides what a client is told.**
The outer failure goes wrong in the same way, its refusal is the inner one with the text in front of
its message, and its answer has the same status; so does a whole stack of layers, and every failure
is its root under one.  What the refusal and the answer say besides the message is read off the
root. -/
theorem told_by_root (f : Failure) :
    (∀ slug description : String,
      (within slug description f).SameCause f
        ∧ (within slug description f).message = description ++ ": " ++ f.message
        ∧ Refusal.ofFailure (within slug description f) = (Refusal.ofFailure f).within description
        ∧ Refusal.missingResource (within slug description f) = Refusal.missingResource f
        ∧ (Refusal.ofFailure (within slug description f)).slug = (Refusal.ofFailure f).slug
        ∧ (Refusal.ofFailure (within slug description f)).retryable
            = (Refusal.ofFailure f).retryable
        ∧ (Web.Answer.refused (Refusal.ofFailure (within slug description f))).status
            = (Web.Answer.refused (Refusal.ofFailure f)).status)
      ∧ (∀ layers, (f.under layers).SameCause f
        ∧ (f.under layers).message
            = layers.foldr (fun layer text => layer.2 ++ ": " ++ text) f.message
        ∧ Refusal.ofFailure (f.under layers)
            = layers.foldr (fun layer r => r.within layer.2) (Refusal.ofFailure f))
      ∧ f.root.under f.layers = f ∧ f.root.layers = []
      ∧ f.Told (Refusal.ofFailure f) (Web.Answer.refused (Refusal.ofFailure f)) := by
  refine ⟨fun slug description => ?_, fun layers => ?_, f.under_layers, f.layers_root, f.told⟩
  · have same : (within slug description f).SameCause f := .of_root (root_within ..)
    have prefixed := Refusal.ofFailure_within slug description f
    refine ⟨same, rfl, prefixed, Refusal.missingResource_within .., ?_, ?_, ?_⟩
    · rw [prefixed, Refusal.slug_within]
    · rw [prefixed, Refusal.retryable_within]
    · rw [prefixed]
      exact Refusal.status_within description (Refusal.ofFailure f)
  · have same : (f.under layers).SameCause f := .of_root (root_under layers f)
    exact ⟨same, message_under layers f, Refusal.ofFailure_under layers f⟩

end Failure

end TrainerBooking
