import Collector.Project.Disk
import Collector.Project.Host

/-!
# Machines

A host that exists as a value: builds on it can be followed step by step.
-/

namespace Collector

/-- A machine that exists as a value: its disk, and what commands have reported on it. -/
structure Machine where
  disk : Disk
  reports : List Report

namespace Machine

/-- Writes the text of a file. A write that fails changes nothing. -/
def write (here : Place) (path text : String) : StateM Machine (Except FileFault Unit) :=
  fun machine =>
    match machine.disk.writeText here path text with
    | .ok disk => (.ok (), { machine with disk := disk })
    | .error fault => (.error fault, machine)

/-- The operations of a machine, for commands that run at a place of its disk. -/
def host (here : Place) : Host (StateM Machine) :=
  { realName := fun path machine => (machine.disk.realName here path, machine)
    readText := fun path machine => (machine.disk.readText here path, machine)
    writeText := write here
    report := fun report machine =>
      ((), { machine with reports := machine.reports ++ [report] }) }

/-- Runs a step of a build on a machine. -/
def run {α : Type} (work : Work (StateM Machine) α) (machine : Machine) : Outcome α × Machine :=
  (ExceptT.run work).run machine

end Machine

end Collector
