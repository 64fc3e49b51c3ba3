import Provision.Build.Report
import Provision.Json.Decoder

/-!
# Saved reports

Input:
* a report, or the text of a saved one.

Algorithm:
* a report is saved as JSON, its fields in a fixed order; a failure is one object that holds the unit,
  the reason, and what belongs to the reason;
* a saved report is decoded as it is written; unknown fields are left alone.

Results:
* `Report.save` is the text of a report, `Report.load` the report of a text or an error.
-/

namespace Provision

def BuildState.options : List (String × BuildState) :=
  [("pending", .pending), ("running", .running), ("completed", .completed), ("failed", .failed)]

def BuildState.label : BuildState → String
  | .pending => "pending"
  | .running => "running"
  | .completed => "completed"
  | .failed => "failed"

namespace Overflow

/-- The object of a notice, its fields in order. -/
def toObject (o : Overflow) : Tree :=
  .object [("unit", .text o.unit), ("weight", .nat o.weight), ("ceiling", .nat o.ceiling),
    ("partition", .nat o.partition)]

def decoder : Json.Decoder Overflow := fun d => do
  let (unit, weight, ceiling, partition, ()) ←
    Json.Slots.record "struct PartitionOverflow"
      (.cons "unit" Json.Decoder.text .forbidden <|
        .cons "weight" Json.Decoder.size .forbidden <|
        .cons "ceiling" Json.Decoder.size .forbidden <|
        .cons "partition" Json.Decoder.size .forbidden <|
        .nil) d
  return ⟨unit, weight, ceiling, partition⟩

end Overflow

namespace Handle

/-- The object of a handle, its fields in order. -/
def toObject (h : Handle) : Tree :=
  .object [("unitId", .text h.unitId), ("kind", .text h.kind.text),
    ("identifier", .text h.identifier), ("outputs", .object h.outputs)]

def decoder : Json.Decoder Handle := fun d => do
  let (unitId, kind, identifier, outputs, ()) ←
    Json.Slots.record "struct ProvisionedHandle"
      (.cons "unitId" Json.Decoder.text .forbidden <|
        .cons "kind" Json.Decoder.text .forbidden <|
        .cons "identifier" Json.Decoder.text .forbidden <|
        .cons "outputs" Json.Decoder.treeEntries (.default []) <|
        .nil) d
  return ⟨unitId, Kind.ofText kind, identifier, outputs⟩

end Handle

namespace Failure

/-- The object of a failure, its fields in order. -/
def toObject (f : Failure) : Tree :=
  .object (("unit", .text f.unit) ::
    match f.reason with
    | .failed message => [("reason", .text "failed"), ("message", .text message)]
    | .panicked message => [("reason", .text "panicked"), ("message", .text message)]
    | .cancelled dependency =>
      [("reason", .text "cancelled"), ("dependency", .text dependency)])

/-- The unit of a failure as far as it was met, and the entries that belong to its reason. -/
def gather : Option String → List (String × Json.Draft) →
    Except Json.DecodeFault (Option String × List (String × Tree))
  | unit, [] => .ok (unit, [])
  | unit, (key, d) :: rest =>
    if key = "unit" then
      match unit with
      | some _ => .error (.repeatedField "unit")
      | none => do
        let id ← Json.Decoder.text d
        gather (some id) rest
    else do
      let t ← Json.Decoder.tree d
      let (unit, others) ← gather unit rest
      return (unit, (key, t) :: others)

/-- The kinds of reasons, each with the field it has and the reason that a text in it makes. -/
def reasons : List (String × String × (String → FailureReason)) :=
  [("failed", "message", .failed), ("panicked", "message", .panicked),
    ("cancelled", "dependency", .cancelled)]

/-- The kind of reason that a label or a position stands for. -/
def reasonOf : Tree → Except Json.DecodeFault (String × (String → FailureReason))
  | .text label => Json.Decoder.labelled reasons label
  | .number (.integer i) =>
    if i < 0 then .error (.wrongType (.integer i) "variant identifier")
    else
      match reasons[i.toNat]? with
      | some r => .ok r.2
      | none => .error (.wrongValue (.integer i) "variant index 0 <= i < 3")
  | t => .error (.wrongType (.ofTree t) "variant identifier")

/-- The only value under a key, if there is one. -/
def only? (key : String) (entries : List (String × Tree)) :
    Except Json.DecodeFault (Option Tree) :=
  match entries.filter fun e => e.1 == key with
  | [] => .ok none
  | [e] => .ok (some e.2)
  | _ => .error (.repeatedField key)

def reasonFrom (entries : List (String × Tree)) : Except Json.DecodeFault FailureReason := do
  match entries.find? fun e => e.1 == "reason" with
  | none => .error (.missingField "reason")
  | some (_, t) =>
    let (field, make) ← reasonOf t
    let _ ← only? "reason" entries
    match entries.find? fun e => e.1 == field with
    | none => .error (.missingField field)
    | some (_, .text s) =>
      let _ ← only? field entries
      return make s
    | some (_, t) => .error (.wrongType (.ofTree t) "a string")

def decoder : Json.Decoder Failure
  | .object entries => do
    let (unit, others) ← gather none entries
    match unit with
    | none => .error (.missingField "unit")
    | some unit =>
      let reason ← reasonFrom others
      return ⟨unit, reason⟩
  | d => Json.Decoder.mismatch "struct UnitFailure" d

end Failure

def Instant.decoder : Json.Decoder Instant
  | .text s => (Instant.ofText s).mapError fun f => .unreadable f.message
  | d => Json.Decoder.mismatch "an RFC 3339 formatted date and time string" d

namespace Report

/-- The object of a report, its fields in order. -/
def toObject (r : Report) : Tree :=
  .object [("build_id", .text r.buildId), ("state", .text r.state.label),
    ("order", .texts r.order), ("partitions", .nat r.partitions),
    ("overflows", .list (r.overflows.map Overflow.toObject)),
    ("succeeded", .list (r.succeeded.map Handle.toObject)),
    ("failed", .list (r.failed.map Failure.toObject)),
    ("started_at", .ofOption (fun t => .text t.text) r.startedAt),
    ("completed_at", .ofOption (fun t => .text t.text) r.completedAt)]

def save (r : Report) : String := Json.pretty r.toObject

def decoder : Json.Decoder Report := fun d => do
  let (buildId, state, order, partitions, overflows, succeeded, failed, startedAt, completedAt,
      ()) ←
    Json.Slots.record "struct BuildReport"
      (.cons "build_id" Json.Decoder.text .forbidden <|
        .cons "state" (Json.Decoder.choice BuildState.options) .forbidden <|
        .cons "order" (Json.Decoder.list Json.Decoder.text) .forbidden <|
        .cons "partitions" Json.Decoder.size .forbidden <|
        .cons "overflows" (Json.Decoder.list Overflow.decoder) (.default []) <|
        .cons "succeeded" (Json.Decoder.list Handle.decoder) .forbidden <|
        .cons "failed" (Json.Decoder.list Failure.decoder) .forbidden <|
        .cons "started_at" (Json.Decoder.optional Instant.decoder) (.byName none) <|
        .cons "completed_at" (Json.Decoder.optional Instant.decoder) (.byName none) <|
        .nil) d
  return ⟨buildId, state, order, partitions, overflows, succeeded, failed, startedAt, completedAt⟩

def load (text : String) : Except BuildError Report :=
  (Json.decodeText decoder text).mapError fun f => .serialization f.message

end Report
end Provision
