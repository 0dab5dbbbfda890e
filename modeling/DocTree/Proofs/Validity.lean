import DocTree.Proofs.PlainIntake
import DocTree.Proofs.Registration
import DocTree.Proofs.Rendering
import DocTree.Proofs.SettingMerge
import DocTree.Proofs.Splicing
import Mathlib

/-!
# Documents are valid

A node takes its name from the link that it is begun from, and gets no other children than those
that were built from links of a kind with a slot, which have a kind. So a node is valid exactly if
its link has a kind at the moment when it is begun, and assembly begins none from another link,
whatever became of the links before. That is why a command that can use all that it reads never
meets an invalid document.
-/

namespace DocTree

/-! ## Valid nodes -/

namespace Node

/-- Two lists of nodes are valid together if each of them is. -/
@[simp]
theorem validAll_append (nodes others : List Node) :
    validAll (nodes ++ others) = (validAll nodes && validAll others) := by
  simp only [validAll_eq_all, List.all_append]

/-- A list of one node is valid if the node is. -/
@[simp]
theorem validAll_singleton (node : Node) : validAll [node] = node.valid := by
  rw [validAll_eq_all, List.all_cons, List.all_nil, Bool.and_true]

/-- A child that is added to a slot has to be valid as well, wherever the slot stands. -/
theorem validSlots_insertWith (slot : String) (child : Node) (slots : Keyed (List Node)) :
    validSlots (Keyed.insertWith (fun present => present.getD [] ++ [child]) slot slots) =
      (validSlots slots && child.valid) := by
  fun_induction Keyed.insertWith (fun present => present.getD [] ++ [child]) slot slots with
  | case1 => simp [validSlots]
  | case2 nodes rest =>
    simp only [validSlots, Option.getD_some, validAll_append, validAll_singleton]
    exact Bool.and_right_comm _ _ _
  | case3 other nodes rest _ _ =>
    simp only [validSlots, Option.getD_none, List.nil_append, validAll_singleton]
    exact Bool.and_comm _ _
  | case4 other nodes rest _ _ ih =>
    simp only [validSlots, ih]
    exact (Bool.and_assoc _ _ _).symm

/-- A node with one child more is valid if it was and the child is. -/
theorem valid_addChild (node child : Node) (slot : String) :
    (node.addChild slot child).valid = (node.valid && child.valid) := by
  obtain ⟨name, payload, primary, children, attributes⟩ := node
  simp only [addChild, valid, validSlots_insertWith]
  grind

end Node

namespace Construction

open Sequence

variable {registry : Registry} {s : Sequence} {id : LinkId} {kinds : List String} {name : String}
  {place : Option LinkId} {e e' : Extraction} {built : Built (Option Node)}

/-- A node is begun valid exactly if its link has a kind. -/
theorem valid_begin (s : Sequence) (id : LinkId) (kind : Kind) :
    (begin s id kind).node.valid = (s.value id != "") := by
  simp [begin, Node.leaf, Node.valid, Node.validSlots, Node.validAttributes]

/-- Extraction changes nothing about whether a node is valid. -/
theorem Extracts.valid (h : Extracts registry id kinds place e e') :
    e'.node.valid = e.node.valid := by
  induction h with
  | done => rfl
  | pass _ _ ih => exact ih
  | exhaust _ _ _ ih => exact ih
  | lose _ _ _ _ ih => exact ih
  | @child _ kind _ _ e _ done found _ declaration hslot hfind _ _ _ _ ihchild ih =>
    have hvalue : e.sequence.value found ≠ "" := by
      obtain ⟨-, -, rfl⟩ := found_spec hslot hfind
      intro hempty
      exact hslot (by rw [hempty]; rfl)
    have hchild : done.node.valid = true := by
      rw [ihchild, valid_begin]
      exact bne_iff_ne.mpr hvalue
    rw [ih]
    simp only [Extraction.drop, Extraction.addChild, present, Extraction.finish,
      Node.valid_addChild, hchild, Bool.and_true]

/-- What is built for a name is valid exactly if its link has a kind. -/
theorem Creates.valid (h : Creates registry name s id built) :
    ∀ node ∈ built.result, node.valid = (s.value id != "") := by
  intro node hnode
  cases h with
  | absent => cases hnode
  | declared _ _ hdone =>
    obtain rfl := Option.some.inj hnode
    exact hdone.valid.trans (valid_begin _ _ _)

end Construction

/-- Assembly adds valid nodes only. -/
theorem Assembly.Walks.valid {registry : Registry} {place : Option LinkId} {heads : List LinkId}
    {done done' : Built (List Node)} (hregistry : registry.Declared)
    (h : Walks registry place heads done done') (hs : done.sequence.WellFormed) :
    Node.validAll done'.result = Node.validAll done.result := by
  induction h with
  | done => rfl
  | turn _ ih => exact ih hs
  | @look id heads done done' built hbuilt _ ih =>
    have hlook := (consumes_buildAt hregistry hs hbuilt).1
    have hhere : Node.validAll built.result.toList = true := by
      rcases buildAt_cases hregistry hs hbuilt with ⟨hpending, -, hcreates⟩ | ⟨-, hnone, -⟩
      · have hvalue := bne_iff_ne.mpr hpending.2.1
        rw [Node.validAll_eq_all, List.all_eq_true]
        intro node hnode
        rw [hcreates.valid node (Option.mem_toList.mp hnode), hvalue]
      · rw [hnone]
        rfl
    rw [ih hlook.wellFormed, add, Node.validAll_append, hhere, Bool.and_true]

/-- The document of a well-formed sequence is valid. -/
theorem Sequence.valid_assemble {registry : Registry} {s : Sequence}
    (hregistry : registry.Declared) (hs : s.WellFormed) :
    ∃ built, s.assemble registry = some built ∧ built.result.valid = true := by
  obtain ⟨done, hdone, hwalks⟩ := s.assemble_total hregistry hs
  exact ⟨_, hdone, hwalks.valid hregistry hs⟩

/-! ## Commands that print a document -/

/-- All that a command reads to print a document can be used: the settings, which name a format that
is at hand, the grammar, whose kinds are all accepted, and the tokens. -/
structure Usable (files : Reading) (tokensPath grammarPath : String)
    (format config : Option String) (settings : Settings) (registry : Registry)
    (tokens : List Token) : Prop where
  settings_eq : Invocation.settings files config format = .ok settings
  known : ∃ output, Formats.standard.find? settings.format = some output
  registry_eq : ∃ grammar, Grammar.load files grammarPath = .ok grammar ∧
    grammar.registry = .ok registry
  tokens_eq : ∃ source, readTextFile files tokensPath = .ok source ∧
    Json.readTokens source = .ok tokens

/-- A command succeeds and prints a text, which gets a newline at its end if it has none. -/
structure Outcome.Prints (outcome : Outcome) (text : String) : Prop where
  failure_eq : outcome.failure = none
  code_eq : outcome.code = 0
  ended : text.toList.getLast? = some '\n' → outcome.output = text
  unended : text.toList.getLast? ≠ some '\n' → outcome.output = text ++ "\n"

/-- A command that can use all that it reads folds the tokens and prints what comes of it; only an
invalid document makes it fail. -/
theorem Usable.runParse_eq {files : Reading} {tokensPath grammarPath : String}
    {format config : Option String} {settings : Settings} {registry : Registry}
    {tokens : List Token} {built : Built Document}
    (h : Usable files tokensPath grammarPath format config settings registry tokens)
    (hbuilt : (({} : Intake).parse tokens).1.sequence.assemble registry = some built) :
    ∃ text, Formats.standard.render? built.result settings.format = some text ∧
      Invocation.runParse files tokensPath grammarPath format config = .ok
        { output := withNewline text
          events := .classified tokens.length :: built.events
          failure := if built.result.valid then none else some .invalidDocument } := by
  obtain ⟨output, hknown⟩ := h.known
  obtain ⟨grammar, hgrammar, hregistry⟩ := h.registry_eq
  obtain ⟨source, hsource, htokens⟩ := h.tokens_eq
  refine ⟨output.render built.result.view, by simp [Formats.render?, hknown], ?_⟩
  have hfold : foldTokens registry tokens = some
      { intake := { (({} : Intake).parse tokens).1 with sequence := built.sequence }
        document := built.result
        events := .classified tokens.length :: built.events } := by
    simp only [foldTokens, hbuilt, Option.bind_eq_bind, Option.bind_some]
  rw [Invocation.runParse, h.settings_eq]
  simp only [hknown, hgrammar, hregistry, hsource, htokens, hfold, Except.mapError, bind,
    Except.bind, pure, Except.pure]

/-- Documents of declared kinds are valid, whatever their sequence went through. So a command that
can use all that it reads succeeds, and prints the document of its tokens. -/
theorem valid_documents :
    (∀ (s : Sequence) (registry : Registry), s.WellFormed → registry.Declared →
      ∃ built, s.assemble registry = some built ∧ built.result.valid = true) ∧
    ∀ files tokensPath grammarPath format config settings registry tokens,
      Usable files tokensPath grammarPath format config settings registry tokens →
      ∃ built text, (({} : Intake).parse tokens).1.sequence.assemble registry = some built ∧
        Formats.standard.render? built.result settings.format = some text ∧
        ((Invocation.parse tokensPath grammarPath format config).run files).Prints text := by
  refine ⟨fun s registry hs hregistry => Sequence.valid_assemble hregistry hs, ?_⟩
  intro files tokensPath grammarPath format config settings registry tokens h
  obtain ⟨grammar, -, hgrammar⟩ := h.registry_eq
  obtain ⟨built, hbuilt, hvalid⟩ := Sequence.valid_assemble (Grammar.declared_registry hgrammar)
    (Intake.Mirrors.start.parse tokens).1.wellFormed
  obtain ⟨text, htext, hrun⟩ := h.runParse_eq hbuilt
  refine ⟨built, text, hbuilt, htext, ?_⟩
  rw [Invocation.run, hrun]
  simp only [hvalid, if_true, Outcome.ofExcept]
  exact {
    failure_eq := rfl
    code_eq := rfl
    ended := fun hend => if_pos hend
    unended := fun hend => if_neg hend }

/-- A grammar of lists that hold items. -/
def listGrammarText : String :=
  "[[kinds]]\nname = \"list\"\nchildren = [\"item\"]\n[[kinds]]\nname = \"item\"\n"

/-- The grammar that the text declares. -/
def listGrammar : Grammar :=
  { kinds := [{ name := "list", children := ["item"] }, { name := "item" }] }

/-- A list, an item and a text without a kind, as a token file. -/
def fileTokensText : String :=
  "[[\"a\", \"list\"], [\"b\", \"item\"], [\"c\", \"\"]]"

/-- The tokens of the file. -/
def fileTokens : List Token :=
  [{ value := "list", data := "a" }, { value := "item", data := "b" }, { data := "c" }]

/-- Empty settings, the grammar and the tokens, as files. -/
def listFiles : Reading := fun path =>
  if path = Invocation.projectFile then .ok "".toUTF8
  else if path = "kinds.toml" then .ok listGrammarText.toUTF8
  else if path = "tokens.json" then .ok fileTokensText.toUTF8
  else .error .notFound

/-- The grammar file loads. -/
theorem load_listFiles : Grammar.load listFiles "kinds.toml" = .ok listGrammar := by
  have hlines : Toml.statements? (listGrammarText.toList.length + 2) listGrammarText.toList = some
      [.listHeader [] "kinds", .pair [] "name" (.text "list"),
        .pair [] "children" (.list [.text "item"]), .listHeader [] "kinds",
        .pair [] "name" (.text "item")] := by cbv
  have hread : Toml.read listGrammarText = some (.table [("kinds", .list
      [.table [("name", .text "list"), ("children", .list [.text "item"])],
        .table [("name", .text "item")]])]) :=
    (Toml.read_of_statements? (by decide) hlines).trans rfl
  have hload : SettingFile.load listFiles "kinds.toml" true =
      SettingFile.entriesOf (some (SettingFile.shownPath "kinds.toml")) listGrammarText := rfl
  rw [Grammar.load, hload, SettingFile.entriesOf, hread]
  rfl

/-- The files can be used where the grammar is accepted. -/
theorem usable_listFiles {registry : Registry} (hregistry : listGrammar.registry = .ok registry) :
    Usable listFiles "tokens.json" "kinds.toml" none none {} registry fileTokens where
  settings_eq := by
    rw [Invocation.settings, Settings.load, Layers.merge, Setting.defaults_eq, pure_bind]
    rfl
  known := ⟨_, rfl⟩
  registry_eq := ⟨listGrammar, load_listFiles, hregistry⟩
  tokens_eq := ⟨fileTokensText, rfl, by cbv⟩

/-- A text without a kind before two lists and two items, of which one list is claimed and one item
emptied. -/
def mixedLists : Sequence :=
  (((Sequence.ofTokens
    [{ data := "x" }, { value := "list", data := "a" }, { value := "item", data := "b" },
      { value := "list", data := "c" }, { value := "item", data := "d" }]).claim 1).empty 2).1

/-- The mixed lists hang together. -/
theorem mixedLists_wellFormed : mixedLists.WellFormed := by
  have hfresh := (Sequence.ofTokens_spec
    [{ data := "x" }, { value := "list", data := "a" }, { value := "item", data := "b" },
      { value := "list", data := "c" }, { value := "item", data := "d" }]).1
  exact (hfresh.claim (by decide)).empty (by decide)

/-- The list that is not claimed takes the item up that is not emptied. -/
def mixedNodes : List Node :=
  [{ Node.leaf "list" ["c"] with children := [("item", [Node.leaf "item" ["d"]])] }]

/-- The nodes that the mixed lists and the tokens of the file are built to. -/
theorem nodes_listGrammar {registry : Registry} (hregistry : listGrammar.registry = .ok registry) :
    (mixedLists.assemble registry).map (fun built => built.result.nodes) = some mixedNodes ∧
      ((({} : Intake).parse fileTokens).1.sequence.assemble registry).map
        (fun built => built.result.nodes) = some (itemNodes true) := by
  obtain rfl := Except.ok.inj hregistry
  constructor <;> cbv

/-- The document of the mixed lists is valid, and the command prints the one of the files. -/
theorem valid_documents_lists :
    ∃ registry : Registry, registry.Declared ∧ mixedLists.WellFormed ∧
      (∃ built, mixedLists.assemble registry = some built ∧ built.result.nodes = mixedNodes ∧
        built.result.valid = true) ∧
      Usable listFiles "tokens.json" "kinds.toml" none none {} registry fileTokens ∧
      ∃ built text, (({} : Intake).parse fileTokens).1.sequence.assemble registry = some built ∧
        built.result.nodes = itemNodes true ∧ text = itemText ∧
        Formats.standard.render? built.result "json" = some text ∧
        ((Invocation.parse "tokens.json" "kinds.toml" none none).run listFiles).Prints text := by
  obtain ⟨registry, hregistry⟩ : ∃ registry, listGrammar.registry = .ok registry := ⟨_, rfl⟩
  have hdeclared := Grammar.declared_registry hregistry
  have husable := usable_listFiles hregistry
  obtain ⟨hmixed, hfile⟩ := nodes_listGrammar hregistry
  obtain ⟨built, hbuilt, hvalid⟩ :=
    valid_documents.1 mixedLists registry mixedLists_wellFormed hdeclared
  obtain ⟨built', text, hbuilt', htext, hprints⟩ := valid_documents.2 _ _ _ _ _ _ _ _ husable
  have hnodes : built'.result.nodes = itemNodes true := by simpa [hbuilt'] using hfile
  exact ⟨registry, hdeclared, mixedLists_wellFormed,
    ⟨built, hbuilt, by simpa [hbuilt] using hmixed, hvalid⟩, husable, built', text, hbuilt', hnodes,
    Option.some.inj (htext.symm.trans (Formats.render?_of_itemNodes hnodes)), htext, hprints⟩

end DocTree
