import StoryMarkup.Macros.Control
import StoryMarkup.Macros.Region

/-! The macros every story has. -/
namespace StoryMarkup.Macros

open Render

def builtins : List Definition := [
  ⟨⟨"", { args := .raw }⟩, unnamed⟩,
  ⟨⟨"print", {}⟩, print⟩,
  ⟨⟨"render", {}⟩, render⟩,
  ⟨⟨"set", { args := .raw }⟩, set⟩,
  ⟨⟨"include", {}⟩, includePassage⟩,
  ⟨⟨"if", { args := .raw, body := .required, siblings := some ["elseif", "else"] }⟩, ifChain⟩,
  ⟨⟨"elseif", { args := .raw, body := .optional }⟩, orphan "if"⟩,
  ⟨⟨"else", { args := .raw, body := .optional }⟩, orphan "if"⟩,
  ⟨⟨"switch", { args := .raw, siblings := some ["case", "default"] }⟩, switchChain⟩,
  ⟨⟨"case", { args := .raw, body := .optional }⟩, orphan "switch"⟩,
  ⟨⟨"default", { args := .raw, body := .optional }⟩, orphan "switch"⟩,
  ⟨⟨"while", { args := .raw, body := .required }⟩, whileLoop⟩,
  ⟨⟨"for", { body := .required, iteration := true }⟩, forLoop⟩,
  ⟨⟨"break", {}⟩, jump .breakLoop⟩,
  ⟨⟨"continue", {}⟩, jump .continueLoop⟩,
  ⟨⟨"later", { body := .required }⟩, later⟩,
  ⟨⟨"append", { body := .required }⟩, place .atEnd⟩,
  ⟨⟨"prepend", { body := .required }⟩, place .atStart⟩,
  ⟨⟨"replace", { body := .required }⟩, place .instead⟩,
  ⟨⟨"redoable", { body := .required }⟩, redoable⟩,
  ⟨⟨"redo", {}⟩, redo⟩,
  ⟨⟨"link", { body := .optional }⟩, link⟩,
  ⟨⟨"checkbox", { args := .raw }⟩, checkbox⟩,
  ⟨⟨"textinput", { args := .raw }⟩, textInput⟩,
  ⟨⟨"punt", { args := .raw }⟩, punt⟩]

end StoryMarkup.Macros
