/-!
# Transcripts

What a program has written to a console: its output, and apart from it the reports about its work.
-/

namespace CheckedScript

structure Transcript where
  output : String
  report : String
deriving DecidableEq, Inhabited

namespace Transcript

def empty : Transcript := ⟨"", ""⟩

instance : Append Transcript := ⟨fun a b => ⟨a.output ++ b.output, a.report ++ b.report⟩⟩

@[simp] theorem output_append (a b : Transcript) : (a ++ b).output = a.output ++ b.output := rfl

@[simp] theorem report_append (a b : Transcript) : (a ++ b).report = a.report ++ b.report := rfl

/-- A line of output. -/
def line (text : String) : Transcript := ⟨text ++ "\n", ""⟩

/-- A line of output, or nothing if there is no text for it. -/
def lineUnlessEmpty (text : String) : Transcript := if text.isEmpty then empty else line text

/-- A line of the reports. -/
def reported (text : String) : Transcript := ⟨"", text ++ "\n"⟩

end Transcript

end CheckedScript
