import ShejaneRuntime.Migration.Legacy

/-!
# The event log after opening

Opening deletes the events that are no longer stored and gives the events of a
run with duplicate numbers their places in the order of number, time and id.
What is left keeps its content and its order, and every run's numbers are
distinct.
-/

namespace ShejaneRuntime.Migration

open Lib Store

/-! ## Numbering a run -/

section Numbering

variable {events : List Event} {run : String}

theorem Event.eq_of_id (hids : (events.map Event.id).Nodup) {e e' : Event} (he : e ∈ events)
    (he' : e' ∈ events) (h : e.id = e'.id) : e = e' :=
  List.inj_on_of_nodup_map hids he he' h

end Numbering

/-! ## The log that is left -/

/-- Neither transient nor a legacy spawn. -/
def Event.kept (e : Event) : Bool :=
  !decide (e.eventType ∈ transientRunEventTypes) && !e.legacySpawn

/-- An event with the number it has once the log is repaired. -/
def numbered (log : List Event) (e : Event) : Event :=
  if duplicated log e.runId then { e with seq := place Event.key (ofRun log e.runId) e } else e

/-- All of an event but its number. -/
def Event.content (e : Event) : Event := { e with seq := 0 }

section Order

variable {log : List Event}

variable (hids : (log.map Event.id).Nodup)

include hids

end Order

/-! ## The latest lifecycle event -/

end ShejaneRuntime.Migration
