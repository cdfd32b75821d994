import Ls8.CommandLine.Arguments
import Ls8.Proofs.Text

/-!
# The arguments of a run

* `Arguments.words`: what to write on the command line to ask for a run.
* `parse_words`: it is read as what was asked for.
-/

namespace Ls8.CommandLine

/-- The words that ask for a limit. -/
def limitWords : Option UInt64 → List String
  | none => []
  | some limit => ["--max-steps", toString limit.toNat]

/-- The words that ask for a run: the options that it wants, and the path of the image. -/
def Arguments.words (arguments : Arguments) : List String :=
  (if arguments.trace then ["--trace"] else []) ++
  (if arguments.corrected then ["--corrected"] else []) ++
  limitWords arguments.maxSteps ++
  (if arguments.dumpState then ["--dump-state"] else []) ++
  [arguments.image]

/-- Arguments that can be asked for: the path does not look like an option. -/
structure Arguments.CanBeAsked (arguments : Arguments) : Prop where
  some : arguments.image ≠ ""
  plain : Argument.ofString arguments.image = .plain arguments.image

theorem parseFrom_flag {word name : String} {read marked : Partial}
    (hWord : Argument.ofString word = .long name none)
    (hName : name ∉ ["help", "version", "max-steps"])
    (hFlag : read.withFlag? name = some marked) (rest : List String) :
    parseFrom read (word :: rest) = parseFrom marked rest := by
  simp only [List.mem_cons, List.not_mem_nil, or_false, not_or] at hName
  obtain ⟨hHelp, hVersion, hMaxSteps⟩ := hName
  rw [parseFrom.eq_def]
  simp only [hWord]
  rw [hFlag, continueWith]

/-- A flag that may be given or not. -/
theorem parseFrom_option {word name : String} {read marked : Partial}
    (hWord : Argument.ofString word = .long name none)
    (hName : name ∉ ["help", "version", "max-steps"])
    (hFlag : read.withFlag? name = some marked) (given : Bool) (rest : List String) :
    parseFrom read ((if given then [word] else []) ++ rest) =
      parseFrom (if given then marked else read) rest := by
  cases given with
  | false => rfl
  | true => exact parseFrom_flag hWord hName hFlag rest

/-- What does not begin with a dash is no option. -/
theorem ofString_of_toList {text : String} {c : Char} {rest : List Char}
    (h : text.toList = c :: rest) (hDash : c ≠ '-') : Argument.ofString text = .plain text := by
  rw [Argument.ofString, h]
  split <;> simp_all

theorem ofString_toString (n : Nat) : Argument.ofString (toString n) = .plain (toString n) := by
  obtain ⟨c, rest, hDigits, hDigit⟩ := Text.exists_toDigits_eq_cons n
  have hDash : c ≠ '-' := by
    rintro rfl
    cases hDigit
  have hList : (toString n).toList = c :: rest := by
    rw [Nat.toString_eq_ofList_toDigits, String.toList_ofList, hDigits]
  exact ofString_of_toList hList hDash

theorem word?_toString (word : UInt64) : Text.word? (toString word.toNat).toList = some word := by
  have hBound : word.toNat < Text.wordBound := word.toNat_lt
  rw [Text.word?, Nat.toString_eq_ofList_toDigits, String.toList_ofList,
    Text.unsigned?_toDigits hBound, Option.map_some, UInt64.ofNat_toNat]

theorem parseFrom_maxSteps {read : Partial} (hNone : read.maxSteps = none) (limit : UInt64)
    (rest : List String) : parseFrom read ("--max-steps" :: toString limit.toNat :: rest) =
      parseFrom { read with maxSteps := some limit } rest := by
  have hWord : Argument.ofString "--max-steps" = .long "max-steps" none := by decide
  rw [parseFrom.eq_def]
  simp only [hWord, ofString_toString]
  rw [Partial.withMaxSteps?, hNone, word?_toString]
  rfl

theorem parseFrom_image {read : Partial} {path : String} (hNone : read.image = none)
    (hSome : path ≠ "") (hPlain : Argument.ofString path = .plain path) :
    parseFrom read [path] = { read with image := some path }.finish := by
  rw [parseFrom, hPlain]
  simp [Partial.withImage?, hNone, hSome, continueWith, parseFrom]

/-- **The words of arguments are read as the arguments.** -/
theorem parse_words {arguments : Arguments} (h : arguments.CanBeAsked) :
    Arguments.parse arguments.words = .emulate arguments := by
  obtain ⟨image, trace, corrected, maxSteps, dumpState⟩ := arguments
  have hTrace : Argument.ofString "--trace" = .long "trace" none := by decide
  have hCorrected : Argument.ofString "--corrected" = .long "corrected" none := by decide
  have hDumpState : Argument.ofString "--dump-state" = .long "dump-state" none := by decide
  have hFirst : ∀ rest, parseFrom {} ((if trace then ["--trace"] else []) ++ rest) =
      parseFrom { trace } rest := by
    intro rest
    rw [parseFrom_option hTrace (by decide) rfl]
    cases trace <;> rfl
  have hSecond : ∀ rest, parseFrom { trace } ((if corrected then ["--corrected"] else []) ++
      rest) = parseFrom { trace, corrected } rest := by
    intro rest
    rw [parseFrom_option hCorrected (by decide) rfl]
    cases corrected <;> rfl
  have hThird : ∀ rest, parseFrom { trace, corrected } (limitWords maxSteps ++ rest) =
      parseFrom { trace, corrected, maxSteps } rest := by
    intro rest
    cases maxSteps with
    | none => rfl
    | some limit => exact parseFrom_maxSteps rfl limit rest
  have hFourth : ∀ rest, parseFrom { trace, corrected, maxSteps }
      ((if dumpState then ["--dump-state"] else []) ++ rest) =
      parseFrom { trace, corrected, maxSteps, dumpState } rest := by
    intro rest
    rw [parseFrom_option hDumpState (by decide) rfl]
    cases dumpState <;> rfl
  simp only [Arguments.parse, Arguments.words, List.append_assoc]
  rw [hFirst, hSecond, hThird, hFourth, parseFrom_image rfl h.some h.plain]
  rfl

end Ls8.CommandLine
