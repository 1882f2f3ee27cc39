import Stencil.Proofs.Sharing.View
import Stencil.Proofs.Template.Quotation

/-! What becomes of a quoted value in a page.

A page with one tag and one attribute is compiled into three steps, of which the second prints the value; or into one, if
the value has no interpolations. So the text that a value is read as can be seen in what the page writes.
-/

set_option autoImplicit false

namespace Stencil

open Json (Value)
open Program
open Template

/-! ### Instructions -/

def opening (tag name : List Char) : String := "<" ++ String.ofList tag ++ (" " ++ String.ofList name ++ "=\"")

namespace Script

theorem ofDocument_attributeTag (tag : List Char) {name : List Char} {value : Node} {fragment : Fragment} (line : Nat)
    (is : fragments (String.ofList name) value = .ok [fragment]) :
    ofDocument ⟨[attributeTag tag name value line]⟩ = .write ("<" ++ String.ofList tag) ::
      (Attribute.script { name := String.ofList name, values := [fragment] } ++ [.write "/>"]) := by
  simp [ofDocument, ofNodes, ofNode, attributeTag, attributeScript, attributesOf, attributes, fragmentsOf, is, merged,
    valuesOf, closeTag, TagHead.named, TagHead.qualifiedName, bind, Except.bind, pure, Except.pure, List.eraseDups_cons]

theorem fragments_text (name content : String) (line : Nat) :
    fragments name (.text content line) = .ok [.literal content] := by
  rw [fragments]

theorem fragments_eval (name source : String) (line : Nat) :
    fragments name (.eval source line) = .ok [.expression source line] := by
  rw [fragments]

theorem script_literal (name text : String) :
    Attribute.script { name, values := [.literal text] } =
      [.write (" " ++ name ++ "=\"" ++ escapeQuotes text), .write "\""] := by
  have literals : Attribute.literals { name, values := [.literal text] } = [text] := List.mergeSort_singleton text
  rw [Attribute.script, literals, String.intercalate_singleton]
  rfl

theorem script_expression (name source : String) (line : Nat) :
    Attribute.script { name, values := [.expression source line] } =
      [.write (" " ++ name ++ "=\""), .print source line, .write "\""] := by
  have literals : Attribute.literals { name, values := [.expression source line] } = [] := List.mergeSort_nil
  have nothing : escapeQuotes (String.intercalate " " []) = "" := by rfl
  rw [Attribute.script, literals, nothing, String.append_empty]
  rfl

end Script

/-! ### Tables of one unit -/

namespace UnitTable

variable {modelType : String} {references : List String}

def single (modelType : String) (sharing : Sharing) (source : String) (line : Nat) : UnitTable :=
  (UnitTable.empty modelType sharing).registerAll [(source, .text, line)]

theorem units_single (sharing : Sharing) (source : String) (line : Nat) : (single modelType sharing source line).units =
    [{ name := (UnitTable.empty modelType sharing).nameFor .text (Text.trimText source)
       source := Text.trimText source, kind := .text, line }] := by
  cases sharing <;> rfl

theorem ofExpressions_empty (named : '\n' ∉ modelType.toList) (sharing : Sharing) (references : List String) :
    (empty modelType sharing).OfExpressions references :=
  ⟨⟨modelType, sharing, [], rfl⟩, named, List.nodup_nil, nofun⟩

theorem ofExpressions_single (named : '\n' ∉ modelType.toList) (sharing : Sharing) {source : String} {e : Expr}
    (is : IsExpression (functionsOf references) (Text.trimText source) e) (line : Nat) :
    (single modelType sharing source line).OfExpressions references where
  registered := ⟨modelType, sharing, _, rfl⟩
  line := by
    rw [single, (settings_registerAll _ _).1]
    exact named
  distinct := by
    rw [units_single]
    exact List.nodup_singleton _
  expressions := by
    rw [units_single]
    exact List.forall_mem_singleton.mpr ⟨e, is⟩

end UnitTable

/-! ### The page -/

theorem compileView_of_walk {context : Context} {store : Store} {backend : Backend} {options : Options}
    {modelType : String} {memo : Memo} {walked : Walked} {resolved : ResolvedUnits} {steps : List Step}
    (walks : walk context store memo modelType options.sharing = .ok walked)
    (compiled : walked.units.compile backend options.references = .ok resolved)
    (bound : Renderer.bindOps resolved walked.ops = .ok steps) :
    (compileView context store backend options modelType memo).1 =
      .ok { modelType := walked.units.modelType, steps, units := resolved.size } := by
  simp only [compileView, walks]
  exact Walked.compile_eq_ok compiled bound

section
variable {context : Context} {tag name : List Char} {line : Nat} {options : Options} {modelType : String}

section
variable {content : String}

theorem walk_literal (alone : context.layout = none) (main : context.main = ⟨[attributeTag tag name (.text content line) line]⟩)
    (store : Store) (memo : Memo) (modelType : String) (sharing : Sharing) :
    walk context store memo modelType sharing = .ok
      { ops := [.text (opening tag name ++ Script.escapeQuotes content ++ "\"/>")]
        units := .empty modelType sharing
        memo } := by
  have root : context.root = context.main := by simp only [Context.root, alone, Option.getD_none]
  have script := Script.ofDocument_attributeTag tag line (Script.fragments_text (String.ofList name) content line)
  rw [Script.script_literal] at script
  simp [walk, root, main, script, Walk.runAll, Walk.run, WalkState.start, WalkState.write, WalkState.finish,
    Builder.empty, Builder.write, Builder.flush, Builder.finish?, bind, Except.bind, opening, String.append_assoc]

theorem exists_render_literal (alone : context.layout = none)
    (main : context.main = ⟨[attributeTag tag name (.text content line) line]⟩) (named : '\n' ∉ modelType.toList)
    (known : ∀ reference ∈ options.references, (library? reference).isSome) (store : Store) (memo : Memo) :
    ∃ renderer, (compileView context store interpreter options modelType memo).1 = .ok renderer ∧
      ∀ model, renderer.render .unlimited model =
        { writes := [opening tag name ++ Script.escapeQuotes content ++ "\"/>"], error := none } := by
  obtain ⟨resolved, compiled, _⟩ :=
    (UnitTable.ofExpressions_empty named options.sharing options.references).exists_compile known
  have bound : Renderer.bindOps resolved [.text (opening tag name ++ Script.escapeQuotes content ++ "\"/>")] =
      .ok [.write (opening tag name ++ Script.escapeQuotes content ++ "\"/>")] := rfl
  exact ⟨_, compileView_of_walk (walk_literal alone main store memo modelType options.sharing) compiled bound,
    fun model => rfl⟩

end

section
variable {source : String}

theorem walk_expression (alone : context.layout = none)
    (main : context.main = ⟨[attributeTag tag name (.eval source line) line]⟩) (store : Store) (memo : Memo)
    (modelType : String) (sharing : Sharing) :
    walk context store memo modelType sharing = .ok
      { ops := [.text (opening tag name), .expression 0, .text "\"/>"]
        units := .single modelType sharing source line
        memo } := by
  have root : context.root = context.main := by simp only [Context.root, alone, Option.getD_none]
  have script := Script.ofDocument_attributeTag tag line (Script.fragments_eval (String.ofList name) source line)
  rw [Script.script_expression] at script
  cases sharing <;>
    simp [walk, root, main, script, Walk.runAll, Walk.run, WalkState.start, WalkState.write, WalkState.print,
      WalkState.finish, UnitTable.single, UnitTable.register, UnitTable.registerAll, UnitTable.find?, UnitTable.append,
      UnitTable.empty, UnitTable.nameFor, Builder.empty, Builder.write, Builder.flush, Builder.expression, Builder.emit,
      Builder.finish?, bind, Except.bind, opening]

theorem exists_render_expression {e : Expr} (alone : context.layout = none)
    (main : context.main = ⟨[attributeTag tag name (.eval source line) line]⟩) (named : '\n' ∉ modelType.toList)
    (known : ∀ reference ∈ options.references, (library? reference).isSome)
    (is : IsExpression (functionsOf options.references) (Text.trimText source) e) (store : Store) (memo : Memo) :
    ∃ renderer, (compileView context store interpreter options modelType memo).1 = .ok renderer ∧
      ∀ model text, textFor model e = .ok text →
        renderer.render .unlimited model = { writes := [opening tag name, text, "\"/>"], error := none } := by
  obtain ⟨resolved, compiled, answers⟩ :=
    (UnitTable.ofExpressions_single named options.sharing is line).exists_compile known
  rw [UnitTable.units_single] at answers
  obtain ⟨_, d, declares, found⟩ := answers 0 _ rfl
  have entry : d.entryPoint = .text fun model => (textFor model e).mapError .eval := by
    rw [Declaration.entryPoint, declares.kind, is.whole.unique declares.body]
  have bound : Renderer.bindOps resolved [.text (opening tag name), .expression 0, .text "\"/>"] = .ok
      [.write (opening tag name), .print (resolved.name 0) fun model => (textFor model e).mapError .eval,
        .write "\"/>"] := by
    simp only [Renderer.bindOps, Renderer.bindOp, found, entry, bind, Except.bind]
    rfl
  refine ⟨_, compileView_of_walk (walk_expression alone main store memo modelType options.sharing) compiled bound,
    fun model text value => ?_⟩
  simp [Renderer.render, Renderer.runSteps, Renderer.runStep, value, Except.mapError, Rendering.write, Rendering.empty,
    Sink.unlimited]

end

end

/-! ### Quoted values -/

section
variable {quote : Char} {tag name : List Char} {references : List String} (quotes : isQuote quote)
  (tagged : IsTagName tag) (named : IsAttributeName name) (form : AttributeForm)
  (known : ∀ reference ∈ references, (library? reference).isSome)

include quotes tagged named known

/-- A value without interpolations comes out with its escapes resolved and its quotes as entities. -/
theorem literal_rendered {text : List Char} (closed : isProtected text) (quoted : Quoted quote text)
    (single : '\n' ∉ text) :
    ∃ document, Document.ofText (String.ofList (form.line tag name (quote :: (text ++ [quote])))) = .ok document ∧
      ∀ context store memo modelType options, context.layout = none → context.main = document →
        '\n' ∉ modelType.toList → options.references = references →
          ∃ renderer, (compileView context store interpreter options modelType memo).1 = .ok renderer ∧
            ∀ model, renderer.render .unlimited model =
              { writes := [opening tag name ++ String.ofList (resolved text) ++ "\"/>"], error := none } := by
  have stands := standsFor_quoted quotes quoted tagged named form single (quotedValue_literal closed) fun _ => rfl
  refine ⟨_, stands.document, ?_⟩
  rintro context store memo modelType options alone main type rfl
  have same : Script.escapeQuotes (String.ofList (unescape text)) = String.ofList (resolved text) := by
    rw [Script.escapeQuotes, String.toList_ofList, resolved]
  rw [← same]
  exact exists_render_literal alone main type known store memo

variable {q : Quotation}

/-- A value with interpolations comes out with its literal texts as they are, but for the backslashes in front of
openings. -/
theorem Template.Quotation.Reads.rendered (reads : q.Reads (functionsOf references)) (mixed : q.IsMixed)
    (quoted : Quoted quote q.raw) (single : '\n' ∉ q.raw) :
    ∃ document, Document.ofText (String.ofList (form.line tag name (quote :: (q.raw ++ [quote])))) = .ok document ∧
      ∀ context store memo modelType options, context.layout = none → context.main = document →
        '\n' ∉ modelType.toList → options.references = references →
          ∃ renderer, (compileView context store interpreter options modelType memo).1 = .ok renderer ∧
            ∀ model written, q.told unprotected model = .ok written → renderer.render .unlimited model =
              { writes := [opening tag name, String.ofList written, "\"/>"], error := none } := by
  obtain ⟨source, e, read, trimmed, is, texts⟩ := reads.exists_expression mixed single
  have stands := standsFor_quoted quotes quoted tagged named form single read fun _ => rfl
  refine ⟨_, stands.document, ?_⟩
  rintro context store memo modelType options alone main type rfl
  have same : Text.trimText (String.ofList source) = String.ofList source := by
    rw [Text.trimText, String.toList_ofList, trimmed]
  obtain ⟨renderer, compiled, renders⟩ := exists_render_expression alone main type known (same ▸ is) store memo
  refine ⟨renderer, compiled, fun model written told => renders model _ ?_⟩
  rw [texts, told]
  rfl

/-- A quoted value with interpolations comes out as if its literal texts were treated as in one without them, exactly
if these are plain: without quotes, and with no escapes but those of openings. -/
theorem mixed_value_rendered (reads : q.Reads (functionsOf references)) (mixed : q.IsMixed)
    (quoted : Quoted quote q.raw) (single : '\n' ∉ q.raw) :
    ∃ document, Document.ofText (String.ofList (form.line tag name (quote :: (q.raw ++ [quote])))) = .ok document ∧
      ∀ context store memo modelType options, context.layout = none → context.main = document →
        '\n' ∉ modelType.toList → options.references = references →
          ∃ renderer, (compileView context store interpreter options modelType memo).1 = .ok renderer ∧
            ∀ model written, q.told unprotected model = .ok written →
              renderer.render .unlimited model =
                  { writes := [opening tag name, String.ofList written, "\"/>"], error := none } ∧
                (q.told resolved model = .ok written ↔ ∀ text ∈ q.literals, isPlain text) := by
  obtain ⟨document, parsed, compiles⟩ := reads.rendered quotes tagged named form known mixed quoted single
  refine ⟨document, parsed, fun context store memo modelType options alone main type libraries => ?_⟩
  obtain ⟨renderer, compiled, renders⟩ := compiles context store memo modelType options alone main type libraries
  exact ⟨renderer, compiled, fun model written told =>
    ⟨renders model written told, Quotation.told_resolved_iff told⟩⟩

end

namespace Saying

def page (document : Document) : Context where
  layout := none
  main := document
  folder := ⟨"views"⟩
  extension := "haml"

def model : Value := .object [("title", .string "T")]

def opened : Quotation :=
  .part "\\#\x7bx\x7d ".toList " model.title ".toList (.member .model "title") (.literal ['!'])

def hi : List Char := '\\' :: '"' :: 'h' :: 'i' :: '\\' :: '"' :: [' ']

def saying : Quotation := .part hi "model.title".toList (.member .model "title") (.literal [])

theorem reads_opened : opened.Reads (functionsOf ["core"]) := by
  refine .part (by decide) (by decide) ?_ (.literal (by decide))
  have trimmed : Text.trim " model.title ".toList = "model.title".toList := by rfl
  rw [trimmed]
  exact Greeting.isOperand_title

theorem reads_saying : saying.Reads (functionsOf ["core"]) := by
  refine .part (by decide) (by decide) ?_ (.literal (by decide))
  have trimmed : Text.trim "model.title".toList = "model.title".toList := by rfl
  rw [trimmed]
  exact Greeting.isOperand_title

theorem quoted_opened : Quoted '\'' opened.raw := by
  have raw : opened.raw = '\\' :: '#' :: "\x7bx\x7d #\x7b model.title \x7d!".toList := by rfl
  rw [raw]
  exact .escape '#' (.of_free (by decide) (by decide))

theorem quoted_hi {rest : List Char} (after : Quoted '"' rest) : Quoted '"' (hi ++ rest) :=
  .escape '"' (.plain (by decide) (by decide) (.plain (by decide) (by decide)
    (.escape '"' (.plain (by decide) (by decide) after))))

theorem isTagName_p : IsTagName ['p'] := ⟨by decide, by decide⟩

theorem isAttributeName_title : IsAttributeName "title".toList := ⟨by decide, by decide⟩

end Saying

open Saying in
theorem mixed_value_rendered_opened : ∃ document renderer,
    Document.ofText "%p\x7btitle: '\\#\x7bx\x7d #\x7b model.title \x7d!'\x7d" = .ok document ∧
    (compileView (page document) Files.empty.store interpreter .standard "Page" .empty).1 = .ok renderer ∧
    renderer.render .unlimited model = { writes := ["<p title=\"", "#\x7bx\x7d T!", "\"/>"], error := none } ∧
    opened.told resolved model = .ok "#\x7bx\x7d T!".toList := by
  have mixed : opened.IsMixed := fun _ => nofun
  have told : opened.told unprotected model = .ok "#\x7bx\x7d T!".toList := by rfl
  obtain ⟨document, parsed, compiles⟩ := mixed_value_rendered rfl isTagName_p isAttributeName_title .colon
    (by decide) reads_opened mixed quoted_opened (by decide)
  obtain ⟨renderer, compiled, renders⟩ :=
    compiles (page document) Files.empty.store .empty "Page" .standard rfl rfl (by decide) rfl
  obtain ⟨rendered, same⟩ := renders model _ told
  exact ⟨document, renderer, parsed, compiled, rendered, same.mpr (by decide)⟩

open Saying in
/-- Escaped quotes keep their backslashes in a value with interpolations, and are no entities; without interpolations they
are. -/
theorem mixed_value_altered :
    (∃ document renderer, Document.ofText "%p\x7btitle: \"\\\"hi\\\" \"\x7d" = .ok document ∧
      (compileView (page document) Files.empty.store interpreter .standard "Page" .empty).1 = .ok renderer ∧
      renderer.render .unlimited model = { writes := ["<p title=\"&quot;hi&quot; \"/>"], error := none }) ∧
    ∃ document renderer, Document.ofText "%p\x7btitle: \"\\\"hi\\\" #\x7bmodel.title\x7d\"\x7d" = .ok document ∧
      (compileView (page document) Files.empty.store interpreter .standard "Page" .empty).1 = .ok renderer ∧
      renderer.render .unlimited model = { writes := ["<p title=\"", "\\\"hi\\\" T", "\"/>"], error := none } ∧
      saying.told resolved model = .ok "&quot;hi&quot; T".toList := by
  constructor
  · have quoted : Quoted '"' hi := quoted_hi .nil
    have known : ∀ reference ∈ ["core"], (library? reference).isSome := by decide
    obtain ⟨document, parsed, compiles⟩ := literal_rendered rfl isTagName_p isAttributeName_title .colon known
      (by decide) quoted (by decide +kernel)
    obtain ⟨renderer, compiled, renders⟩ :=
      compiles (page document) Files.empty.store .empty "Page" .standard rfl rfl (by decide) rfl
    exact ⟨document, renderer, parsed, compiled, renders model⟩
  · have mixed : saying.IsMixed := fun _ => nofun
    have told : saying.told unprotected model = .ok "\\\"hi\\\" T".toList := by rfl
    have quoted : Quoted '"' saying.raw := quoted_hi (.of_free (by decide) (by decide +kernel))
    obtain ⟨document, parsed, compiles⟩ := reads_saying.rendered rfl isTagName_p isAttributeName_title .colon
      (by decide) mixed quoted (by decide)
    obtain ⟨renderer, compiled, renders⟩ :=
      compiles (page document) Files.empty.store .empty "Page" .standard rfl rfl (by decide) rfl
    exact ⟨document, renderer, parsed, compiled, renders model _ told, rfl⟩

end Stencil
