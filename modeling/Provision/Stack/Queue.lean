import Provision.Shape.Read
import Provision.Shape.Write

/-!
# Queues

Input:
* the document of a queue.

Algorithm:
* the fields are those of the document; a collection that is left out is empty, and an optional
  field that is left out is absent.

Results:
* the shape of each type reads and writes it.
-/

namespace Provision
namespace Stack

/-- A rule that puts events into a queue. -/
structure QueueRule where
  name : String
  description : Option String
  enabled : Bool
  eventPattern : Option Tree

def QueueRule.shape : Shape QueueRule :=
  .record "struct SqsRule" false
    (.required "name" .text <|
      .optional "description" .text <|
      .withDefault "enabled" .bool false <|
      .optional "eventPattern" .tree <|
      .nil)
    { pack := fun (name, description, enabled, eventPattern, ()) =>
        ⟨name, description, enabled, eventPattern⟩
      unpack := fun x => (x.name, x.description, x.enabled, x.eventPattern, ()) }

structure Queue where
  name : String
  /-- How many minutes a message is kept. -/
  retention : Option Nat
  rules : List QueueRule
  customPolicies : List Tree
  tags : Entries String

def Queue.shape : Shape Queue :=
  .record "struct SqsConf" false
    (.required "name" .text <|
      .optional "retention" (.nat 32) <|
      .withDefault "rules" (.list QueueRule.shape) [] <|
      .withDefault "customPolicies" (.list .tree) [] <|
      .withDefault "tags" (.entries .text) [] <|
      .nil)
    { pack := fun (name, retention, rules, customPolicies, tags, ()) =>
        ⟨name, retention, rules, customPolicies, tags⟩
      unpack := fun x => (x.name, x.retention, x.rules, x.customPolicies, x.tags, ()) }

end Stack
end Provision
