import Branchwork.Proofs.Yaml.Problems
import Mathlib

/-!
# What can be wrong with the tokens of a text

Cutting a text into tokens fails because the text is malformed, because of a code beyond the last
character (`Scan.quotedEscape`), or because of a version with too many digits (`Scan.versionNumber`).
The parser adds no reasons of its own to that: what it does not refuse as malformed was wrong with the
token that it looked at.

A reader is put together from smaller ones, and each of them fails only like this (`Textual`) if its
parts do.

Main results:

* `textual_of_mem_tokenize` — what is wrong with an unreadable token.
* `malformed_or_mem_of_ofTokens?` — why no node is made of a list of tokens.
-/

open Std.Do

set_option mvcgen.warning false

namespace Branchwork.Yaml

/-- What can be wrong with a text before any scalar is given a value. -/
inductive Problem.IsTextual : Problem → Prop
  | malformed (part : Part) : IsTextual (.malformed part)
  | charCode {code : Nat} (beyond : 0x110000 ≤ code) : IsTextual (.charCode code)
  | tooManyDigits {count : Nat} (beyond : DigitLimit.greatest < count) :
      IsTextual (.tooManyDigits count)

/-- A reader fails only because of how the text is written. -/
abbrev Textual {σ α : Type} (reader : StateT σ (Except Problem) α) : Prop :=
  ⦃⌜True⌝⦄ reader ⦃post⟨fun _ => ⌜True⌝, fun problem => ⌜problem.IsTextual⌝⟩⦄

/-- A token was read, and does not just say why none could be. -/
def Token.IsReadable : Token → Prop
  | .unreadable _ => False
  | _ => True

/-- A reader gives tokens that were read. -/
abbrev ReadsToken (reader : Scan Token) : Prop :=
  ⦃⌜True⌝⦄ reader ⦃post⟨fun t => ⌜t.IsReadable⌝, fun problem => ⌜problem.IsTextual⌝⟩⦄

@[spec high]
theorem throw_spec {σ α : Type} {problem : Problem} {Q : Problem → Prop} {R : α → σ → Prop} :
    ⦃⌜Q problem⌝⦄ (throw problem : StateT σ (Except Problem) α)
    ⦃post⟨fun a s => ⌜R a s⌝, fun problem => ⌜Q problem⌝⟩⦄ :=
  fun _ h => h

/-- What a specification says about a failure. -/
theorem error_of_spec {σ α : Type} {reader : StateT σ (Except Problem) α} {P : σ → Prop}
    {R : α → σ → Prop} {Q : Problem → Prop}
    (spec : ⦃fun s => ⌜P s⌝⦄ reader ⦃post⟨fun a s => ⌜R a s⌝, fun problem => ⌜Q problem⌝⟩⦄)
    {s : σ} (here : P s) {problem : Problem} (failed : reader s = .error problem) : Q problem := by
  have found := spec s here
  simp only [WP.wp, PredTrans.apply_pushArg] at found
  rw [show reader.run s = _ from failed] at found
  exact found

/-- What a specification says about an end without failure. -/
theorem ok_of_spec {σ α : Type} {reader : StateT σ (Except Problem) α} {P : σ → Prop}
    {R : α → σ → Prop} {Q : Problem → Prop}
    (spec : ⦃fun s => ⌜P s⌝⦄ reader ⦃post⟨fun a s => ⌜R a s⌝, fun problem => ⌜Q problem⌝⟩⦄)
    {s s' : σ} (here : P s) {a : α} (ended : reader s = .ok (a, s')) : R a s' := by
  have found := spec s here
  simp only [WP.wp, PredTrans.apply_pushArg] at found
  rw [show reader.run s = _ from ended] at found
  exact found

/-! ## Cutting a text -/

namespace Scan

attribute [spec] peekAt peek ahead skip take takeWhile skipWhile skipComment left atSeparator

@[spec]
theorem textual_fail {α : Type} (part : Part) : Textual (fail part : Scan α) := by
  mvcgen [fail]
  exact .malformed part

@[spec]
theorem textual_takeBreak : Textual takeBreak := by
  mvcgen [takeBreak]

@[spec]
theorem textual_skipLineRest : Textual skipLineRest := by
  mvcgen [skipLineRest]

/-! ### Properties -/

@[spec]
theorem textual_anchorName : Textual anchorName := by
  mvcgen [anchorName]

@[spec]
theorem textual_escapedBytes (fuel : Nat) (bytes : List UInt8) :
    Textual (escapedBytes fuel bytes) := by
  induction fuel generalizing bytes with
  | zero => mvcgen [escapedBytes]
  | succ fuel ih => mvcgen [escapedBytes, ih]

@[spec]
theorem textual_tagText (fuel : Nat) (read : List Char) : Textual (tagText fuel read) := by
  induction fuel generalizing read with
  | zero => mvcgen [tagText]
  | succ fuel ih => mvcgen [tagText, ih]

@[spec]
theorem textual_tagSuffix : Textual tagSuffix := by
  mvcgen [tagSuffix]

@[spec]
theorem textual_tagHandle : Textual tagHandle := by
  mvcgen [tagHandle]

@[spec]
theorem tag_spec : ReadsToken tag := by
  mvcgen [tag]

@[spec]
theorem textual_versionNumber : Textual versionNumber := by
  mvcgen [versionNumber] <;> exact .tooManyDigits ‹_›

@[spec]
theorem textual_directiveValue (name : List Char) : Textual (directiveValue name) := by
  mvcgen [directiveValue]

@[spec]
theorem directive_spec : ReadsToken directive := by
  mvcgen [directive]

/-! ### Scalars -/

@[spec]
theorem textual_plainBreaks (fuel : Nat) (breaks : List Char) :
    Textual (plainBreaks fuel breaks) := by
  induction fuel generalizing breaks with
  | zero => mvcgen [plainBreaks]
  | succ fuel ih => mvcgen [plainBreaks, ih]

@[spec]
theorem textual_plainParts (inFlow : Bool) (indent : Int) (fuel : Nat) (read spaces : List Char)
    (lineEnded : Bool) : Textual (plainParts inFlow indent fuel read spaces lineEnded) := by
  induction fuel generalizing read spaces lineEnded with
  | zero => mvcgen [plainParts]
  | succ fuel ih => mvcgen [plainParts, plainSpaces, ih]

@[spec]
theorem textual_plain (inFlow : Bool) (indent : Int) : Textual (plain inFlow indent) := by
  mvcgen [plain]

@[spec]
theorem textual_quotedBreaks (fuel : Nat) (breaks : List Char) :
    Textual (quotedBreaks fuel breaks) := by
  induction fuel generalizing breaks with
  | zero => mvcgen [quotedBreaks]
  | succ fuel ih => mvcgen [quotedBreaks, ih]

@[spec]
theorem textual_quotedEscape : Textual quotedEscape := by
  mvcgen [quotedEscape]
  exact .charCode ‹_›

@[spec]
theorem textual_quotedText (double : Bool) (fuel : Nat) (read : List Char) :
    Textual (quotedText double fuel read) := by
  induction fuel generalizing read with
  | zero => mvcgen [quotedText]
  | succ fuel ih => mvcgen [quotedText, ih]

@[spec]
theorem textual_quotedParts (quote : Char) (fuel : Nat) (read : List Char) :
    Textual (quotedParts quote fuel read) := by
  induction fuel generalizing read with
  | zero => mvcgen [quotedParts]
  | succ fuel ih => mvcgen [quotedParts, quotedSpaces, ih]

@[spec]
theorem textual_quoted (quote : Char) : Textual (quoted quote) := by
  mvcgen [quoted]

@[spec]
theorem textual_heading : Textual heading := by
  mvcgen [heading, chomping?, increment?]

@[spec]
theorem textual_blockIndentation (fuel : Nat) (breaks : List Char) (widest : Nat) :
    Textual (blockIndentation fuel breaks widest) := by
  induction fuel generalizing breaks widest with
  | zero => mvcgen [blockIndentation]
  | succ fuel ih => mvcgen [blockIndentation, ih]

@[spec]
theorem textual_blockBreaks (indent fuel : Nat) (breaks : List Char) :
    Textual (blockBreaks indent fuel breaks) := by
  induction fuel generalizing breaks with
  | zero => mvcgen [blockBreaks]
  | succ fuel ih => mvcgen [blockBreaks, skipIndentation, ih]

@[spec]
theorem textual_blockLines (folded : Bool) (indent fuel : Nat) (read lineEnd breaks : List Char) :
    Textual (blockLines folded indent fuel read lineEnd breaks) := by
  induction fuel generalizing read lineEnd breaks with
  | zero => mvcgen [blockLines]
  | succ fuel ih => mvcgen [blockLines, atBlockLine, ih]

@[spec]
theorem textual_block (folded : Bool) (indent : Int) : Textual (block folded indent) := by
  mvcgen [block]

end Scan

/-- All tokens so far were read. -/
def Lexer.Clean (s : Lexer) : Prop := ∀ t ∈ s.read, t.IsReadable

namespace Lex

/-- A step of the lexer only adds tokens that were read. -/
abbrev Cuts {α : Type} (step : Lex α) : Prop :=
  ⦃fun s => ⌜s.Clean⌝⦄ step ⦃post⟨fun _ s => ⌜s.Clean⌝, fun problem => ⌜problem.IsTextual⌝⟩⦄

/-- What a reader gives and fails with anywhere, it gives and fails with at the cursor. -/
theorem scan_spec {α : Type} {reader : Scan α} {Q : α → Prop}
    (h : ⦃⌜True⌝⦄ reader ⦃post⟨fun a => ⌜Q a⌝, fun problem => ⌜problem.IsTextual⌝⟩⦄) :
    ⦃fun s => ⌜s.Clean⌝⦄ scan reader
    ⦃post⟨fun a s => ⌜Q a ∧ s.Clean⌝, fun problem => ⌜problem.IsTextual⌝⟩⦄ := by
  mvcgen [scan]
  · exact error_of_spec h trivial ‹_›
  · exact ⟨ok_of_spec h trivial ‹_›, ‹_›⟩

@[spec low]
theorem cuts_scan {α : Type} {reader : Scan α} (h : Textual reader) : Cuts (scan reader) := by
  have spec := scan_spec h
  mvcgen [spec]
  simp_all

@[spec]
theorem scan_directive_spec :
    ⦃fun s => ⌜s.Clean⌝⦄ scan Scan.directive
    ⦃post⟨fun t s => ⌜t.IsReadable ∧ s.Clean⌝, fun problem => ⌜problem.IsTextual⌝⟩⦄ :=
  scan_spec Scan.directive_spec

@[spec]
theorem emit_spec {t : Token} :
    ⦃fun s => ⌜t.IsReadable ∧ s.Clean⌝⦄ emit t
    ⦃post⟨fun _ s => ⌜s.Clean⌝, fun problem => ⌜problem.IsTextual⌝⟩⦄ := by
  mvcgen [emit]
  exact List.forall_mem_cons.mpr ‹_›

@[spec]
theorem insertAt_spec {before : Nat} {t : Token} :
    ⦃fun s => ⌜t.IsReadable ∧ s.Clean⌝⦄ insertAt before t
    ⦃post⟨fun _ s => ⌜s.Clean⌝, fun problem => ⌜problem.IsTextual⌝⟩⦄ := by
  mvcgen [insertAt] with rename_i s before added
  intro u mem
  -- what stands in the list now was put in or stood there
  rcases List.eq_or_mem_of_mem_insertIdx mem with rfl | mem
  · exact before.1
  · exact before.2 u mem

attribute [spec] inFlow allowKey unwind openBlock

@[spec]
theorem cuts_fail {α : Type} (part : Part) : Cuts (fail part : Lex α) := by
  mvcgen [fail]
  exact .malformed part

@[spec]
theorem cuts_dropStaleKeys : Cuts dropStaleKeys := by
  mvcgen [dropStaleKeys]

@[spec]
theorem cuts_dropKey : Cuts dropKey := by
  mvcgen [dropKey]

@[spec]
theorem cuts_noteKey : Cuts noteKey := by
  mvcgen [noteKey]

@[spec]
theorem cuts_closeBlocks (column : Int) (outer : List Int) : Cuts (closeBlocks column outer) := by
  induction outer with
  | nil => mvcgen [closeBlocks]
  | cons outer more ih =>
    mvcgen [closeBlocks, ih]
    exact List.forall_mem_cons.mpr ⟨trivial, ‹_›⟩

@[spec]
theorem mark_spec {length : Nat} {t : Token} :
    ⦃fun s => ⌜t.IsReadable ∧ s.Clean⌝⦄ mark length t
    ⦃post⟨fun _ s => ⌜s.Clean⌝, fun problem => ⌜problem.IsTextual⌝⟩⦄ := by
  mvcgen [mark] <;> simp_all

@[spec]
theorem cuts_closeDocument : Cuts closeDocument := by
  mvcgen [closeDocument]

@[spec]
theorem cuts_keyed {reader : Scan Token} (h : ReadsToken reader) : Cuts (keyed reader) := by
  have spec := scan_spec h
  mvcgen [keyed, spec]

@[spec]
theorem cuts_flowStart {t : Token} (readable : t.IsReadable) : Cuts (flowStart t) := by
  mvcgen [flowStart]

@[spec]
theorem cuts_flowEnd {t : Token} (readable : t.IsReadable) : Cuts (flowEnd t) := by
  mvcgen [flowEnd]

@[spec]
theorem cuts_flowEntry : Cuts flowEntry := by
  mvcgen [flowEntry]

@[spec]
theorem cuts_openAtCursor {t : Token} (readable : t.IsReadable) : Cuts (openAtCursor t) := by
  mvcgen [openAtCursor]

@[spec]
theorem cuts_blockEntry : Cuts blockEntry := by
  mvcgen [blockEntry]

@[spec]
theorem cuts_keyMark : Cuts keyMark := by
  mvcgen [keyMark]

@[spec]
theorem cuts_valueMark : Cuts valueMark := by
  mvcgen [valueMark]

@[spec]
theorem cuts_blockScalar (folded : Bool) : Cuts (blockScalar folded) := by
  mvcgen [blockScalar]

@[spec]
theorem cuts_quotedScalar (quote : Char) : Cuts (quotedScalar quote) := by
  mvcgen [quotedScalar]

@[spec]
theorem cuts_plainScalar : Cuts plainScalar := by
  mvcgen [plainScalar]

@[spec]
theorem cuts_skipToToken (fuel : Nat) : Cuts (skipToToken fuel) := by
  induction fuel with
  | zero => mvcgen [skipToToken]
  | succ fuel ih => mvcgen [skipToToken, ih]

@[spec]
theorem cuts_token (c : Char) : Cuts (token c) := by
  mvcgen [token]
  · exact ⟨by split <;> trivial, ‹_›⟩
  all_goals exact fun _ _ => trivial

theorem cuts_next : Cuts next := by
  mvcgen [next]

end Lex

theorem Lexer.Clean.not_mem {s : Lexer} (clean : s.Clean) (problem : Problem) :
    .unreadable problem ∉ s.read :=
  fun mem => clean _ mem

/-- What is wrong with an unreadable token. -/
theorem textual_of_mem_tokens {s : Lexer} (clean : s.Clean) (fuel : Nat) {problem : Problem}
    (mem : .unreadable problem ∈ s.tokens fuel) : problem.IsTextual := by
  induction fuel generalizing s with
  | zero => exact absurd (List.mem_reverse.mp mem) (clean.not_mem problem)
  | succ fuel ih =>
    rw [Lexer.tokens] at mem
    split at mem
    -- a step that fails leaves its reason behind the tokens that are settled
    · next failed =>
      rcases List.mem_append.mp mem with mem | mem
      · exact absurd (List.mem_reverse.mp (List.mem_of_mem_take mem)) (clean.not_mem problem)
      · cases List.mem_singleton.mp mem
        exact error_of_spec Lex.cuts_next clean failed
    · next goesOn => exact ih (ok_of_spec Lex.cuts_next clean goesOn) mem
    · next ended =>
      exact absurd (List.mem_reverse.mp mem) ((ok_of_spec Lex.cuts_next clean ended).not_mem problem)

theorem textual_of_mem_tokenize {text : String} {tokens : List Token}
    (cut : tokenize text = .ok tokens) {problem : Problem} (mem : .unreadable problem ∈ tokens) :
    problem.IsTextual := by
  unfold tokenize at cut
  dsimp only at cut
  split at cut
  · -- a lexer that starts has no tokens yet
    cases cut
    exact textual_of_mem_tokens (s := ⟨_, [], _, _, _, _⟩) (List.forall_mem_nil _) _ mem
  · cases cut

theorem malformed_of_tokenize {text : String} {problem : Problem}
    (h : tokenize text = .error problem) : problem.IsMalformed := by
  unfold tokenize at h
  dsimp only at h
  split at h
  · cases h
  · cases h
    exact ⟨_, rfl⟩

/-! ## From tokens to nodes -/

section

variable {all : List Token}

/-- What is left of the given tokens. -/
def Parser.Among (all : List Token) (s : Parser) : Prop := ∀ t ∈ s.tokens, t ∈ all

/-- The text is malformed, or the problem is that of one of the tokens. -/
def Problem.IsOf (all : List Token) (problem : Problem) : Prop :=
  problem.IsMalformed ∨ .unreadable problem ∈ all

namespace Parse

/-- A step of the parser fails only because of one of the tokens or refuses them. -/
abbrev Parses {α : Type} (all : List Token) (step : Parse α) : Prop :=
  ⦃fun s => ⌜s.Among all⌝⦄ step
  ⦃post⟨fun _ s => ⌜s.Among all⌝, fun problem => ⌜problem.IsOf all⌝⟩⦄

@[spec]
theorem parses_fail {α : Type} (part : Part) : Parses all (fail part : Parse α) := by
  mvcgen [fail]
  exact .inl ⟨_, rfl⟩

@[spec]
theorem parses_peek : Parses all peek := by
  mvcgen [peek] with rename_i s among _ next
  -- the parser passes on the problem of an unreadable token
  exact .inr (among _ (List.mem_of_mem_head? next))

@[spec]
theorem parses_advance : Parses all advance := by
  mvcgen [advance] with rename_i s among behind
  exact fun t mem => among t (List.mem_of_mem_drop mem)

attribute [spec] atAny accept expect

@[spec]
theorem parses_fullName (handle : Option String) (suffix : String) :
    Parses all (fullName handle suffix) := by
  mvcgen [fullName]

@[spec]
theorem parses_anchor? : Parses all anchor? := by
  mvcgen [anchor?]

@[spec]
theorem parses_tag? : Parses all tag? := by
  mvcgen [tag?]

@[spec]
theorem parses_properties : Parses all properties := by
  mvcgen [properties]

@[spec]
theorem parses_anchored (name : String) : Parses all (anchored name) := by
  mvcgen [anchored]

@[spec]
theorem parses_openAnchor (name : Option String) (begun : Node) : Parses all (openAnchor name begun) := by
  mvcgen [openAnchor, putAnchor]

/-- With the given fuel, no reader fails but because of a token or by refusing them. -/
structure ReadersParse (all : List Token) (fuel : Nat) : Prop where
  node : ∀ inBlock inMapping, Parses all (node inBlock inMapping fuel)
  content : ∀ inBlock inMapping name tag, Parses all (content inBlock inMapping name tag fuel)
  nodeBefore : ∀ ends inBlock inMapping, Parses all (nodeBefore ends inBlock inMapping fuel)
  blockItems : Parses all (blockItems fuel)
  indentlessItems : Parses all (indentlessItems fuel)
  valueBefore : ∀ ends inBlock, Parses all (valueBefore ends inBlock fuel)
  blockEntries : Parses all (blockEntries fuel)
  flowItems : ∀ isFirst, Parses all (flowItems isFirst fuel)
  flowEntries : ∀ isFirst, Parses all (flowEntries isFirst fuel)

attribute [spec] putAnchor

theorem readersParse (all : List Token) (fuel : Nat) : ReadersParse all fuel := by
  -- the readers call each other with less fuel, so one induction carries all of them
  induction fuel with
  | zero =>
    constructor <;> intros
    · mvcgen [node]
    · mvcgen [content]
    · mvcgen [nodeBefore]
    · mvcgen [blockItems]
    · mvcgen [indentlessItems]
    · mvcgen [valueBefore]
    · mvcgen [blockEntries]
    · mvcgen [flowItems]
    · mvcgen [flowEntries]
  | succ fuel ih =>
    obtain ⟨nodes, contents, before, items, indentless, values, entries, flows, pairs⟩ := ih
    constructor <;> intros
    · mvcgen [node, contents]
    · mvcgen [content, flows, pairs, indentless, items, entries]
    · mvcgen [nodeBefore, nodes]
    · mvcgen [blockItems, before, items]
    · mvcgen [indentlessItems, before, indentless]
    · mvcgen [valueBefore, before]
    · mvcgen [blockEntries, before, values, entries]
    · mvcgen [flowItems, nodes, before, values, flows]
    · mvcgen [flowEntries, nodes, before, values, pairs]

@[spec]
theorem parses_node (inBlock inMapping : Bool) (fuel : Nat) :
    Parses all (node inBlock inMapping fuel) :=
  (readersParse all fuel).node inBlock inMapping

@[spec]
theorem parses_directives (fuel : Nat) (versioned : Bool) :
    Parses all (directives fuel versioned) := by
  induction fuel generalizing versioned with
  | zero => mvcgen [directives]
  | succ fuel ih => mvcgen [directives, ih]

@[spec]
theorem parses_skipEnds (fuel : Nat) : Parses all (skipEnds fuel) := by
  induction fuel with
  | zero => mvcgen [skipEnds]
  | succ fuel ih => mvcgen [skipEnds, ih]

theorem parses_document : Parses all document := by
  mvcgen [document, atFrame]

end Parse

/-- Why no node is made of a list of tokens. -/
theorem malformed_or_mem_of_ofTokens? {tokens : List Token} {problem : Problem}
    (h : Node.ofTokens? tokens = .error problem) :
    problem.IsMalformed ∨ .unreadable problem ∈ tokens := by
  unfold Node.ofTokens? at h
  cases ran : Parse.document.run ⟨tokens, [], []⟩ with
  | ok found => rw [ran] at h; cases h
  | error problem' =>
    -- at first all tokens are left
    rw [ran] at h
    cases h
    exact error_of_spec (P := Parser.Among tokens) Parse.parses_document (fun _ mem => mem) ran

end

end Branchwork.Yaml
