import Progressions.CommandLine.Run
import Progressions.Proofs.Interpretation.Answers

/-!
# Rejected texts on the command line

Behind the terminator a text is taken as it is, whatever it looks like.  A rejected one is neither
printed nor described: its reason goes to the error output and the run ends with the status of a
failure.
-/

set_option autoImplicit false

namespace Progressions.CommandLine

variable {source : String} {fault : Fault}

/-! ## Invocations -/

theorem word_describe : word "--describe" = .ok (.option .describe false none) := by
  have isOption : ¬ ("--describe".toList.head? ≠ some '-' ∨ "--describe".toList = ['-']) := by
    decide +kernel
  have spelled : Switch.ofSpelling? "--describe".toList = some .describe := by decide +kernel
  have long : isShort "--describe".toList = false := by decide +kernel
  simp only [word, if_neg isOption, spelled, long]

theorem run_plain (source : String) (fuel : Nat) (patience : Option Nat) :
    run fuel ["--", source] patience = printAll fuel source .initial ⟨"", patience⟩ := rfl

theorem run_describe (source : String) (fuel : Nat) (patience : Option Nat) :
    run fuel ["--describe", "--", source] patience =
      some (describe source { Settings.initial with describe := true } ⟨"", patience⟩) := by
  have invoked : Invocation.ofArguments ["--describe", "--", source] =
      .run source { Settings.initial with describe := true } := by
    simp only [Invocation.ofArguments, words, terminator, word_describe]
    rfl
  rw [run, invoked]
  rfl

/-! ## Failures -/

theorem failureLine_eq (reason : String) :
    failureLine reason = "numseq: " ++ reason ++ "\n" := rfl

theorem eventText_quiet {settings : Settings} (quiet : settings.verbose = false)
    (events : List Event) : eventText settings events = "" := by
  rw [eventText, quiet, if_neg Bool.false_ne_true]

theorem run_rejection (failed : Sequence.ofText source = .error fault)
    (isRejection : fault.isRejection = true) (fuel : Nat) (patience : Option Nat) :
    run fuel ["--", source] patience =
      some ⟨.ok 2, "", "numseq: " ++ fault.message ++ "\n"⟩ := by
  have noIterator : Iterator.ofText source = .error fault := by
    rw [Iterator.ofText, failed]
    rfl
  have unprinted : printer source .initial = .error fault := by rw [printer, noIterator]
  have quiet : eventText .initial (Sequence.readingEvents source) = "" := eventText_quiet rfl _
  rw [run_plain, printAll, unprinted]
  simp only [isRejection, if_true, quiet, String.empty_append, failureLine_eq, failureStatus]

theorem run_describe_rejection (failed : Sequence.ofText source = .error fault)
    (isRejection : fault.isRejection = true) (fuel : Nat) (patience : Option Nat) :
    run fuel ["--describe", "--", source] patience =
      some ⟨.ok 2, "", "numseq: Parse fail: " ++ fault.message ++ "\n"⟩ := by
  have undescribed : description source = .ok (.error ("Parse fail: " ++ fault.message)) := by
    rw [description, Response.ofText_rejection failed isRejection]
    rfl
  have lead : "numseq: " ++ "Parse fail: " = "numseq: Parse fail: " := by decide +kernel
  have quiet : eventText { Settings.initial with describe := true } (Response.events source) = "" :=
    eventText_quiet rfl _
  rw [run_describe, describe, undescribed]
  simp only [quiet, String.empty_append, failureLine_eq, failureStatus, ← String.append_assoc, lead]

end Progressions.CommandLine
