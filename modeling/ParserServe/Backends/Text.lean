import ParserServe.Foundation.Backtracking
import ParserServe.Foundation.Lines
import ParserServe.Foundation.Lower
import ParserServe.Worker.Agent

/-! # Text and Markdown

`backends/text.py`: the text of a source, and its blocks.
-/

namespace ParserServe

open Foundation

/-- `TextBlock` and `HeadingBlock`. -/
inductive ContentBlock
  | text (text : String)
  | heading (text : String) (level : Nat)
  deriving DecidableEq

/-- A `BackendExecutionError`, or the `ValidationError` of a block. -/
inductive TextError
  | execution (message : String)
  | validation
  deriving DecidableEq

/-- The fields of the context that `_read_text` uses; `source` is the content of the file. -/
structure TextContext where
  sourceText : Option (List Char) := none
  source : Option Bytes := none

/-- `_read_text`. -/
def readText (context : TextContext) : Except TextError (List Char) :=
  match context.sourceText, context.source with
  | some text, _ => .ok text
  | none, none => .error (.execution "text Backend requires text or a local file")
  | none, some content =>
      match decodeUtf8Sig content with
      | none => .error (.execution "the text source is not valid UTF-8")
      | some text => .ok (universalNewlines text)

/-! ## Headings -/

/-- `[ \t]`. -/
def isBlank (c : Char) : Bool := c = ' ' || c = '\t'

/-- `$`. -/
def atEnd (text : List Char) : Bool := text = [] || text = ['\n']

/-- `\s*$`. -/
def matchEnd (level : Nat) (text rest : List Char) : Option (Nat × List Char) :=
  greedySearch isSpace 0 rest.length rest fun _ rest =>
    if atEnd rest then some (level, text) else none

/-- `(.+?)` and the rest of the expression. -/
def matchText (level : Nat) (rest : List Char) : Option (Nat × List Char) :=
  lazySearch (· ≠ '\n') 1 rest.length rest (matchEnd level)

/-- `[ \t]+` and the rest of the expression. -/
def matchBlanks (level : Nat) (rest : List Char) : Option (Nat × List Char) :=
  greedySearch isBlank 1 rest.length rest fun _ rest => matchText level rest

/-- `_HEADING.match`, with the length of the first group and the second one. -/
def matchHeading (line : List Char) : Option (Nat × List Char) :=
  greedySearch (· = '#') 1 6 line fun signs rest => matchBlanks signs.length rest

/-- The construction of a `HeadingBlock`. -/
def headingBlock (text : List Char) (level : Nat) : Except TextError ContentBlock :=
  match nonEmptyStr (String.ofList text) with
  | none => .error .validation
  | some text => do
      ensure (1 ≤ level ∧ level ≤ 6) .validation
      .ok (.heading text level)

/-! ## Blocks -/

structure MarkdownState where
  blocks : List ContentBlock := []
  paragraph : List (List Char) := []
  title : Option (List Char) := none

/-- `"\n".join(paragraph)`. -/
def paragraphBlock (paragraph : List (List Char)) : ContentBlock :=
  .text (String.ofList (['\n'].intercalate paragraph))

/-- `flush_paragraph`. -/
def MarkdownState.flush (state : MarkdownState) : MarkdownState :=
  if state.paragraph = [] then state
  else
    { state with
      blocks := state.blocks ++ [paragraphBlock state.paragraph]
      paragraph := [] }

/-- The body of the loop of `_markdown_blocks`. -/
def MarkdownState.line (state : MarkdownState) (line : List Char) :
    Except TextError MarkdownState :=
  match matchHeading line with
  | some (level, text) => do
      let state := state.flush
      let block ← headingBlock text level
      .ok { state with
        blocks := state.blocks ++ [block]
        title := state.title.or (some text) }
  | none =>
      if strip line ≠ [] then .ok { state with paragraph := state.paragraph ++ [line] }
      else .ok state.flush

/-- `_markdown_blocks`. -/
def markdownBlocks (text : List Char) :
    Except TextError (List ContentBlock × Option (List Char)) := do
  let state ← (splitLines text).foldlM MarkdownState.line {}
  .ok (state.flush.blocks, state.flush.title)

/-- Whether `execute` takes the text for Markdown; `ends` tells `lower` which capital sigmas end a
word. -/
def isMarkdown (ends : List Char → List Char → Bool) (metadata : SourceMetadata) : Bool :=
  metadata.mimeType = ⟨"text", "markdown"⟩ || metadata.mimeType = ⟨"text", "x-markdown"⟩ ||
    metadata.filename.any fun filename =>
      ".md".toList.isSuffixOf (lower ends filename.toList) ||
        ".markdown".toList.isSuffixOf (lower ends filename.toList)

/-- The blocks and the title of `execute`. -/
def textBlocks (ends : List Char → List Char → Bool) (metadata : SourceMetadata)
    (context : TextContext) : Except TextError (List ContentBlock × Option (List Char)) := do
  let text ← readText context
  if isMarkdown ends metadata then markdownBlocks text
  else .ok ([.text (String.ofList text)], none)

example : (markdownBlocks "# Title  \n\none\ntwo\n##".toList).toOption = some
    ([.heading "Title" 1, .text "one\ntwo\n##"], some "Title".toList) := by
  decide +kernel

end ParserServe
