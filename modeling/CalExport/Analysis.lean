import CalExport.Token.Lexer
import CalExport.Object.Rule

namespace CalExport

structure Analysis where
  document : Document
  diagnostics : List Diagnostic
  skipped : List SkippedRegion
  /-- The token for the end of the input counts. -/
  tokenCount : Nat
  metrics : Metrics

def Analysis.isClean (a : Analysis) : Bool := a.diagnostics.isEmpty

/-- Reads a whole document and reports how it went. -/
def Rule.wholeDocument : Parse Document := do
  note ((Event.debug "Starting C/AL parse").set "tokens" (toString (← get).tokens.size))
  let document ← document
  let s ← get
  note ((((Event.success .treeBuilt "Syntax tree constructed").set "has_object" (toString document.object.isSome)).set
    "diagnostics" (toString s.diagnostics.size)).set "skipped_regions" (toString s.skipped.size))
  return document

def analyse (preferences : ParserPreferences) (source : String) : Except LexError Analysis × Array Event :=
  match Lexer.read source with
  | (lexed, some e) => (.error e, lexed.events)
  | (lexed, none) =>
    let (document, s) := Rule.wholeDocument { Parser.ofTokens lexed.tokens preferences with events := lexed.events }
    (.ok ⟨document, s.diagnostics.toList, s.skipped.toList, lexed.tokens.size, lexed.metrics⟩, s.events)

end CalExport
