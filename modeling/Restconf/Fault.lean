/-!
# Faults

Everything that can go wrong between a request and its answer, as one inductive type of causes.

## Main definitions

* `Fault` — the causes. A constructor carries what its message names and nothing else.
* `Fault.message` — the wording, in one place.
* `Fault.status` and `Fault.isClientError` — the HTTP status of a cause.
* `Category` — the six kinds of error answer an HTTP client can tell apart, with
  `Fault.category`; `Fault.category_status` says that both routes to a status agree.

## Implementation notes

The texts inside a cause (`reason`, `detail`) are free, because an engine or a sink may report
failures of its own. The causes this library raises itself are built by the functions beside the
operation that raises them, so that a wording occurs once.
-/

namespace Restconf

/-- A cause of failure. -/
inductive Fault where
  /-- A percent sign without two hexadecimal digits after it. -/
  | decode (segment reason : String)
  /-- A path segment outside the grammar `[namespace ":"] name ["=" key ("," key)*]`. -/
  | malformedSegment (segment reason : String)
  /-- A URI that does not lie under the data root, or that names no node there. -/
  | notADataResource (detail : String)
  /-- A JSON value that has no place in a data tree. -/
  | unsupportedNodeType (field nodeType : String)
  /-- A failure reported by the engine. -/
  | treeEngineFailure (detail : String)
  /-- The node to be created exists. -/
  | conflict (target : String)
  /-- The addressed node does not exist. -/
  | notFound (target : String)
  /-- The receiving end of a stream is gone. -/
  | sinkClosed
  /-- Every worker is bound to a subscription. -/
  | poolExhausted (capacity : Nat)
  /-- A broken promise between two parts of the gateway. -/
  | internal (detail : String)
deriving DecidableEq, Repr

namespace Fault

/-- The wording of a cause. -/
def message : Fault → String
  | decode segment reason => s!"Invalid percent-encoding in '{segment}': {reason}"
  | malformedSegment segment reason => s!"Malformed path segment '{segment}': {reason}"
  | notADataResource detail => s!"Not a data resource: {detail}"
  | unsupportedNodeType field nodeType => s!"Unsupported node type {nodeType} for field '{field}'"
  | treeEngineFailure detail => s!"Tree engine failure: {detail}"
  | conflict target => s!"Resource already exists: {target}"
  | notFound target => s!"Resource not found: {target}"
  | sinkClosed => "Event sink closed"
  | poolExhausted capacity => s!"Worker pool exhausted ({capacity} subscriptions active)"
  | internal detail => s!"Internal error: {detail}"

/-- The HTTP status of a cause. -/
def status : Fault → Nat
  | decode .. | malformedSegment .. | notADataResource _ | unsupportedNodeType .. => 400
  | notFound _ => 404
  | conflict _ => 409
  | sinkClosed => 410
  | treeEngineFailure _ | internal _ => 500
  | poolExhausted _ => 503

/-- The request itself is to blame: a status from 400 to 499. -/
def isClientError (fault : Fault) : Bool :=
  400 ≤ fault.status && fault.status < 500

end Fault

/-! ### Outcomes -/

section Outcome

variable {α β : Type} {outcome : Except Fault α} {next : α → Except Fault β}

/-- Two steps succeed if both do. -/
theorem bind_eq_ok_iff {b : β} :
    outcome >>= next = .ok b ↔ ∃ a, outcome = .ok a ∧ next a = .ok b := by
  cases outcome <;> simp [bind, Except.bind]

/-- Two steps fail if the first does, or the second after the first. -/
theorem bind_eq_error_iff {fault : Fault} :
    outcome >>= next = .error fault
      ↔ outcome = .error fault ∨ ∃ a, outcome = .ok a ∧ next a = .error fault := by
  cases outcome <;> simp [bind, Except.bind]

end Outcome

/-! ### Error answers -/

/-- The kinds of error answer that an HTTP client can tell apart. -/
inductive Category where
  | badRequest | notFound | conflict | gone | serviceUnavailable | internalError
deriving DecidableEq, Repr

namespace Category

/-- The name of the kind inside an error answer. -/
def label : Category → String
  | badRequest => "bad_request"
  | notFound => "not_found"
  | conflict => "conflict"
  | gone => "gone"
  | serviceUnavailable => "service_unavailable"
  | internalError => "internal_error"

/-- The HTTP status that goes with the kind. -/
def status : Category → Nat
  | badRequest => 400
  | notFound => 404
  | conflict => 409
  | gone => 410
  | serviceUnavailable => 503
  | internalError => 500

end Category

namespace Fault

/-- The kind of error answer that reports a cause. -/
def category : Fault → Category
  | decode .. | malformedSegment .. | notADataResource _ | unsupportedNodeType .. => .badRequest
  | notFound _ => .notFound
  | conflict _ => .conflict
  | sinkClosed => .gone
  | poolExhausted _ => .serviceUnavailable
  | treeEngineFailure _ | internal _ => .internalError

/-- The status of a cause is the status of the answer that reports it. -/
@[simp]
theorem category_status (fault : Fault) : fault.category.status = fault.status := by
  cases fault <;> rfl

end Fault

end Restconf
