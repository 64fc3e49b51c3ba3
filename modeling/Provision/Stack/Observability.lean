import Provision.Shape.Read
import Provision.Shape.Write

/-!
# Observability

Input:
* the document of what is watched.

Algorithm:
* the fields are those of the document; a collection that is left out is empty, and an optional
  field that is left out is absent.

Results:
* the shape of each type reads and writes it.
-/

namespace Provision
namespace Stack

/-- A metric that is counted from a log. -/
structure MetricFilter where
  filterName : String
  logGroupName : String
  filterPattern : String
  metricNamespace : String
  metricName : String
  metricValue : String
  defaultValue : Option Double

def MetricFilter.shape : Shape MetricFilter :=
  .record "struct MetricFilterConf" false
    (.required "filterName" .text <|
      .required "logGroupName" .text <|
      .required "filterPattern" .text <|
      .required "metricNamespace" .text <|
      .required "metricName" .text <|
      .required "metricValue" .text <|
      .optional "defaultValue" (.real false) <|
      .nil)
    { pack := fun (filterName, logGroupName, filterPattern, metricNamespace, metricName,
        metricValue, defaultValue, ()) =>
        ⟨filterName, logGroupName, filterPattern, metricNamespace, metricName, metricValue,
          defaultValue⟩
      unpack := fun x => (x.filterName, x.logGroupName, x.filterPattern, x.metricNamespace,
        x.metricName, x.metricValue, x.defaultValue, ()) }

structure Alarm where
  name : String
  description : Option String
  metricNamespace : String
  metricName : String
  statistic : Option String
  dimensions : Entries String
  periodMinutes : Option Nat
  evaluationPeriods : Option Nat
  threshold : Double
  comparisonOperator : String
  treatMissingData : Option String
  alarmActions : List String
  tags : Entries String

def Alarm.shape : Shape Alarm :=
  .record "struct AlarmConf" false
    (.required "name" .text <|
      .optional "description" .text <|
      .required "metricNamespace" .text <|
      .required "metricName" .text <|
      .optional "statistic" .text <|
      .withDefault "dimensions" (.entries .text) [] <|
      .optional "periodMinutes" (.nat 32) <|
      .optional "evaluationPeriods" (.nat 32) <|
      .required "threshold" (.real false) <|
      .required "comparisonOperator" .text <|
      .optional "treatMissingData" .text <|
      .withDefault "alarmActions" (.list .text) [] <|
      .withDefault "tags" (.entries .text) [] <|
      .nil)
    { pack := fun (name, description, metricNamespace, metricName, statistic, dimensions,
        periodMinutes, evaluationPeriods, threshold, comparisonOperator, treatMissingData,
        alarmActions, tags, ()) =>
        ⟨name, description, metricNamespace, metricName, statistic, dimensions, periodMinutes,
          evaluationPeriods, threshold, comparisonOperator, treatMissingData, alarmActions, tags⟩
      unpack := fun x => (x.name, x.description, x.metricNamespace, x.metricName, x.statistic,
        x.dimensions, x.periodMinutes, x.evaluationPeriods, x.threshold, x.comparisonOperator,
        x.treatMissingData, x.alarmActions, x.tags, ()) }

structure Dashboard where
  name : String
  body : String
  tags : Entries String

def Dashboard.shape : Shape Dashboard :=
  .record "struct DashboardConf" false
    (.required "name" .text <|
      .required "body" .text <|
      .withDefault "tags" (.entries .text) [] <|
      .nil)
    { pack := fun (name, body, tags, ()) =>
        ⟨name, body, tags⟩
      unpack := fun x => (x.name, x.body, x.tags, ()) }

structure Observability where
  /-- The endpoints of each topic. -/
  topics : Entries (List String)
  metrics : List MetricFilter
  alarms : List Alarm
  dashboards : List Dashboard

def Observability.shape : Shape Observability :=
  .record "struct ObservabilityConf" false
    (.withDefault "topics" (.entries (.list .text)) [] <|
      .withDefault "metrics" (.list MetricFilter.shape) [] <|
      .withDefault "alarms" (.list Alarm.shape) [] <|
      .withDefault "dashboards" (.list Dashboard.shape) [] <|
      .nil)
    { pack := fun (topics, metrics, alarms, dashboards, ()) =>
        ⟨topics, metrics, alarms, dashboards⟩
      unpack := fun x => (x.topics, x.metrics, x.alarms, x.dashboards, ()) }

end Stack
end Provision
