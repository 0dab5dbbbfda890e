import DocTree.Proofs.KeyedLists
import DocTree.Settings.Settings
import Mathlib

/-!
# Merging settings

A tree of settings that holds a text for each setting of the program still holds one after entries
are merged into it: the new text where the entries give one, and the old one elsewhere, also beside
a new one in the same table. Entries under other names do not matter. The tree that merging begins
with is the file of the defaults, read as any other.
-/

namespace DocTree

/-! ## The settings of the program -/

/-- A setting of the program. -/
inductive SettingName where
  | opening
  | closing
  | marker
  | format
  deriving DecidableEq, Repr

namespace SettingName

/-- The table that a setting stands in. -/
def group : SettingName → String
  | opening | closing | marker => "extractor"
  | format => "output"

/-- The key of a setting in its table. -/
def key : SettingName → String
  | opening => "open"
  | closing => "close"
  | marker => "remove"
  | format => "format"

/-- The path of a setting as a text. -/
def path (name : SettingName) : String :=
  name.group ++ "." ++ name.key

/-- The steps of the path of a setting. -/
def steps (name : SettingName) : List KeyStep :=
  [.key name.group, .key name.key]

variable {name other : SettingName}

/-- The path of a setting is read as its steps. -/
theorem read_path (name : SettingName) : KeyPath.read name.path = .ok name.steps := by
  cases name <;> rfl

/-- The name of a table is a path of one step. -/
theorem read_group (name : SettingName) : KeyPath.read name.group = .ok [.key name.group] := by
  cases name <;> rfl

/-- The names of the tables are in lower case. -/
theorem lower_group (name : SettingName) : Text.lower name.group = name.group := by
  cases name <;> decide

/-- The keys are in lower case. -/
theorem lower_key (name : SettingName) : Text.lower name.key = name.key := by
  cases name <;> decide

/-- Different settings have different keys. -/
theorem key_inj : name.key = other.key ↔ name = other := by
  cases name <;> cases other <;> decide

/-- Different settings have different paths. -/
theorem steps_inj : name.steps = other.steps ↔ name = other := by
  refine ⟨fun h => key_inj.mp ?_, congrArg steps⟩
  simp only [steps, List.cons.injEq, KeyStep.key.injEq] at h
  exact h.2.1

end SettingName

namespace Settings

/-- The value of a setting. -/
def get (settings : Settings) : SettingName → String
  | .opening => settings.delimiters.opening
  | .closing => settings.delimiters.closing
  | .marker => settings.delimiters.marker
  | .format => settings.format

/-- The settings with given values. -/
def ofValues (values : SettingName → String) : Settings where
  delimiters :=
    { opening := values .opening, closing := values .closing, marker := values .marker }
  format := values .format

/-- Each setting has the value that was given. -/
theorem get_ofValues (values : SettingName → String) (name : SettingName) :
    (ofValues values).get name = values name := by
  cases name <;> rfl

end Settings

/-- A text that does not begin with a byte order mark is read as the document of its lines. -/
theorem Toml.read_of_statements? {source : String} {lines : List Toml.Statement}
    (hmark : source.toList.head? ≠ some '\uFEFF')
    (hlines : Toml.statements? (source.toList.length + 2) source.toList = some lines) :
    Toml.read source = Toml.document lines := by
  rw [Toml.read]
  generalize source.toList = text at hmark hlines
  split
  · exact absurd rfl hmark
  · rw [hlines]
    rfl

namespace Setting

variable {root table value : Setting} {entries incoming : Keyed Setting} {key : String}
  {values : SettingName → String} {name : SettingName}

/-! ## What is changed by storing a name -/

/-- A table has the same entries when it is taken as a table. -/
theorem entries_asTable (setting : Setting) : setting.asTable.entries = setting.entries := by
  obtain ⟨origin, content⟩ := setting
  cases content <;> rfl

/-- Changing the entry of a name changes the entries under its lower-case form. -/
theorem entries_changeEntry (setting : Setting) (name : String)
    (change : Option Setting → Setting) :
    (setting.changeEntry name change).entries =
      Keyed.insertWith change (Text.lower name) setting.entries := by
  rw [← entries_asTable setting]
  rfl

/-- Whatever is stored under a name, only the entry of the name is changed. -/
theorem exists_assign_eq (root : Setting) (name : String) (value : Setting) :
    ∃ change, root.assign name value = root.changeEntry name change := by
  obtain ⟨origin, content⟩ := value
  cases content with
  | table incoming => exact ⟨_, rfl⟩
  | _ => exact ⟨_, rfl⟩

/-- Whatever is stored at the end of a path, only the entry of its first name is changed. -/
theorem exists_put_eq (value : Setting) (name : String) (path : List KeyStep) (root : Setting) :
    ∃ change, put value (.key name :: path) root = root.changeEntry name change := by
  cases path with
  | nil => exact exists_assign_eq root name value
  | cons step path => exact ⟨_, rfl⟩

/-- The name whose entry a key of a file is stored in: the first name of the path that the key is,
or the key itself if it is no path. -/
def firstName (key : String) : String :=
  match KeyPath.read (Text.lower key) with
  | .ok (.key name :: _) => Text.lower name
  | _ => Text.lower key

/-- A path begins with a name. -/
theorem exists_read_eq {text : String} {path : List KeyStep} (h : KeyPath.read text = .ok path) :
    ∃ name rest, path = .key name :: rest := by
  rw [KeyPath.read] at h
  split at h
  · cases h
  · cases hrest : KeyPath.readSteps (text.toList.length + 1)
        (text.toList.drop (text.toList.takeWhile KeyPath.isNameChar).length) with
    | error fault => rw [hrest] at h; cases h
    | ok rest =>
      rw [hrest] at h
      exact ⟨_, rest, (Except.ok.inj h).symm⟩

/-- An entry of a file changes nothing but the entry of its first name. -/
theorem exists_putEntry_eq (root : Setting) (key : String) (value : Setting) :
    ∃ change, (root.putEntry key value).entries =
      Keyed.insertWith change (firstName key) root.entries := by
  rw [putEntry, firstName]
  cases hread : KeyPath.read (Text.lower key) with
  | ok path =>
    obtain ⟨name, rest, rfl⟩ := exists_read_eq hread
    obtain ⟨change, heq⟩ := exists_put_eq value name rest root
    exact ⟨change, (congrArg entries heq).trans (entries_changeEntry root name change)⟩
  | error fault =>
    obtain ⟨change, heq⟩ := exists_assign_eq root key value
    exact ⟨change, (congrArg entries heq).trans (entries_changeEntry root key change)⟩

/-- Storing entries of a file keeps the order. -/
theorem sorted_putEntries (h : Keyed.Sorted root.entries) (entries : List (String × Setting)) :
    Keyed.Sorted (root.putEntries entries).entries := by
  induction entries generalizing root with
  | nil => exact h
  | cons entry rest ih =>
    obtain ⟨change, heq⟩ := exists_putEntry_eq root entry.1 entry.2
    exact ih (heq ▸ h.insertWith _ _)

/-- The name of a table of settings is stored under itself. -/
theorem firstName_group (name : SettingName) : firstName name.group = name.group := by
  rw [firstName, name.lower_group, name.read_group]
  exact name.lower_group

/-! ## Texts in tables -/

/-- The text that a setting is. -/
def text? (setting : Setting) : Option String :=
  match setting.content with
  | .text value => some value
  | _ => none

/-- The text of a setting of the program among the entries of a tree. -/
def textAt? (entries : Keyed Setting) (name : SettingName) : Option String :=
  (Keyed.get? entries name.group).bind fun table => (Keyed.get? table.entries name.key).bind text?

/-- Among entries with different keys, a text stands in the rest, or else in the first one. -/
theorem textAt?_cons {entry : String × Setting} (h : Keyed.Sorted (entry :: entries))
    (name : SettingName) :
    textAt? (entry :: entries) name = (textAt? entries name).or (textAt? [entry] name) := by
  obtain ⟨key, table⟩ := entry
  by_cases hkey : name.group = key
  · subst hkey
    rw [textAt?, textAt?, textAt?, h.get?_tail, Keyed.get?_cons_self, Keyed.get?_cons_self]
    rfl
  · rw [textAt?, textAt?, textAt?, Keyed.get?_cons_of_ne hkey, Keyed.get?_cons_of_ne hkey]
    exact Option.or_none.symm

/-- Storing an entry keeps the order. -/
theorem sorted_assign (h : Keyed.Sorted table.entries) (key : String) (value : Setting) :
    Keyed.Sorted (table.assign key value).entries := by
  obtain ⟨change, heq⟩ := exists_assign_eq table key value
  rw [heq, entries_changeEntry]
  exact h.insertWith _ _

/-- Storing entries one after another keeps the order. -/
theorem sorted_assignAll (h : Keyed.Sorted table.entries) (incoming : Keyed Setting) :
    Keyed.Sorted (table.assignAll incoming).entries := by
  induction incoming generalizing table with
  | nil => exact h
  | cons item rest ih =>
    rw [assignAll]
    exact ih (sorted_assign h item.1 item.2)

/-- A text is stored as it is. -/
theorem assign_text {text : String} (h : value.text? = some text) (root : Setting) (key : String) :
    root.assign key value = root.changeEntry key fun _ => value := by
  obtain ⟨origin, content⟩ := value
  cases content with
  | text value => rfl
  | _ => cases h

/-- When entries are stored in a table, a key in lower case has its new text, or else what it
had. -/
theorem get?_assignAll (h : Keyed.Sorted table.entries) (hincoming : Keyed.Sorted incoming)
    (hkey : Text.lower key = key)
    (htexts : ∀ item ∈ incoming, Text.lower item.1 = key →
      item.1 = key ∧ ∃ text, item.2.text? = some text) :
    Keyed.get? (table.assignAll incoming).entries key =
      (Keyed.get? incoming key).or (Keyed.get? table.entries key) := by
  induction incoming generalizing table with
  | nil => rfl
  | cons item rest ih =>
    obtain ⟨first, value⟩ := item
    rw [assignAll, ih (sorted_assign h first value) hincoming.tail
      fun item hitem => htexts item (List.mem_cons_of_mem _ hitem)]
    by_cases hfirst : Text.lower first = key
    · obtain ⟨rfl, text, htext⟩ := htexts _ List.mem_cons_self hfirst
      rw [hincoming.get?_tail, Keyed.get?_cons_self, assign_text htext, entries_changeEntry, hfirst,
        Keyed.get?_insertWith_self _ _ h]
      rfl
    · have hne : key ≠ first := fun heq => hfirst (heq ▸ hkey)
      obtain ⟨change, heq⟩ := exists_assign_eq table first value
      rw [Keyed.get?_cons_of_ne hne, heq, entries_changeEntry,
        Keyed.get?_insertWith_of_ne _ (Ne.symm hfirst)]

/-! ## Trees that hold the settings of the program -/

/-- A tree holds texts for the settings of the program: each stands in its table, and the tree and
these tables are in order. -/
structure Holds (root : Setting) (values : SettingName → String) : Prop where
  sorted : Keyed.Sorted root.entries
  group : ∀ name : SettingName, ∃ table, Keyed.get? root.entries name.group = some table ∧
    Keyed.Sorted table.entries ∧
    (Keyed.get? table.entries name.key).bind text? = some (values name)

/-- Only the values count, however they are given. -/
theorem Holds.congr (h : root.Holds values) {values' : SettingName → String}
    (heq : ∀ name, values name = values' name) : root.Holds values' :=
  funext heq ▸ h

/-- An entry of a file gives nothing but texts to the settings of the program: if it is stored in
one of their tables it is that table, and what is stored under one of their keys is a text. -/
def GivesTexts (entry : String × Setting) : Prop :=
  ∀ name : SettingName, firstName entry.1 = name.group → entry.1 = name.group ∧
    ∃ incoming, entry.2.content = .table incoming ∧ Keyed.Sorted incoming ∧
      ∀ item ∈ incoming, Text.lower item.1 = name.key →
        item.1 = name.key ∧ ∃ text, item.2.text? = some text

/-- A table of settings is stored by storing its entries in the table that is there. -/
theorem putEntry_group (root : Setting) (name : SettingName) (h : value.content = .table incoming) :
    root.putEntry name.group value =
      root.changeEntry name.group fun present => assignAll (present.getD emptyTable) incoming := by
  obtain ⟨origin, content⟩ := value
  cases h
  rw [putEntry, name.lower_group, name.read_group]
  rfl

/-- When an entry is stored, a setting has the text that the entry gives it, or else the one that it
had. -/
theorem Holds.putEntry (h : root.Holds values) {entry : String × Setting}
    (hentry : GivesTexts entry) :
    (root.putEntry entry.1 entry.2).Holds fun name => (textAt? [entry] name).getD (values name) where
  sorted := sorted_putEntries h.sorted [entry]
  group name := by
    obtain ⟨table, htable, hsorted, hvalue⟩ := h.group name
    by_cases hfirst : firstName entry.1 = name.group
    · obtain ⟨hname, incoming, hcontent, hincoming, htexts⟩ := hentry name hfirst
      obtain ⟨key, value⟩ := entry
      subst hname
      have hentries : value.entries = incoming := by rw [entries, hcontent]
      refine ⟨table.assignAll incoming, ?_, sorted_assignAll hsorted incoming, ?_⟩
      · rw [putEntry_group root name hcontent, entries_changeEntry, name.lower_group,
          Keyed.get?_insertWith_self _ _ h.sorted, htable]
        rfl
      · rw [get?_assignAll hsorted hincoming name.lower_key htexts, textAt?, Keyed.get?_cons_self,
          Option.bind_some, hentries]
        cases hitem : Keyed.get? incoming name.key with
        | none => exact hvalue
        | some item =>
          obtain ⟨-, text, htext⟩ := htexts _ (Keyed.mem_of_get? hitem) name.lower_key
          simp [htext]
    · -- The entry is stored elsewhere, and the table of the setting stays.
      have hother : name.group ≠ entry.1 := fun heq => hfirst (heq ▸ firstName_group name)
      obtain ⟨change, heq⟩ := exists_putEntry_eq root entry.1 entry.2
      refine ⟨table, ?_, hsorted, ?_⟩
      · rw [heq, Keyed.get?_insertWith_of_ne _ (Ne.symm hfirst), htable]
      · rw [textAt?, Keyed.get?_cons_of_ne hother]
        exact hvalue

/-- When the entries of a file are stored, a setting has the text that the file gives it, or else
the one that it had. -/
theorem Holds.putEntries (h : root.Holds values) (hsorted : Keyed.Sorted entries)
    (hentries : ∀ entry ∈ entries, GivesTexts entry) :
    (root.putEntries entries).Holds fun name => (textAt? entries name).getD (values name) := by
  induction entries generalizing root values with
  | nil => exact h
  | cons entry rest ih =>
    have hrest := ih (h.putEntry (hentries entry List.mem_cons_self)) hsorted.tail
      fun other hother => hentries other (List.mem_cons_of_mem _ hother)
    exact hrest.congr fun name => by rw [textAt?_cons hsorted, Option.getD_or]

/-- A setting is overridden in its table. -/
theorem put_steps (value : Setting) (name : SettingName) (root : Setting) :
    put value name.steps root =
      root.changeEntry name.group fun present => (present.getD unset).assign name.key value :=
  rfl

/-- When a setting is overridden it has the new text, and the others have what they had. -/
theorem Holds.put (h : root.Holds values) (name : SettingName) (text : String) :
    (Setting.put { origin := none, content := .text text } name.steps root).Holds
      fun other => if other = name then text else values other where
  sorted := by
    rw [put_steps, entries_changeEntry]
    exact h.sorted.insertWith _ _
  group other := by
    obtain ⟨table, htable, hsorted, hvalue⟩ := h.group other
    rw [put_steps, entries_changeEntry, name.lower_group]
    by_cases hgroup : other.group = name.group
    · rw [← hgroup, Keyed.get?_insertWith_self _ _ h.sorted, htable]
      refine ⟨_, rfl, sorted_assign hsorted _ _, ?_⟩
      rw [Option.getD_some, assign_text rfl, entries_changeEntry, name.lower_key]
      by_cases hname : other = name
      · rw [hname, Keyed.get?_insertWith_self _ _ hsorted, if_pos rfl]
        rfl
      · -- A sibling in the same table has another key.
        rw [Keyed.get?_insertWith_of_ne _ (mt SettingName.key_inj.mp hname), if_neg hname]
        exact hvalue
    · rw [Keyed.get?_insertWith_of_ne _ hgroup, if_neg fun hname => hgroup (congrArg _ hname)]
      exact ⟨table, htable, hsorted, hvalue⟩

/-! ## The defaults -/

/-- What stands under the keys of the defaults. -/
def defaultEntries (settings : Settings) : List (String × Setting) :=
  let text (value : String) : Setting := { origin := none, content := .text value }
  let table (entries : List (String × Setting)) : Setting :=
    { origin := none, content := .table entries }
  [("extractor", table [("close", text settings.delimiters.closing),
      ("open", text settings.delimiters.opening), ("remove", text settings.delimiters.marker)]),
    ("output", table [("format", text settings.format)])]

set_option maxRecDepth 8000 in
/-- The file that the program comes with sets every setting to its default. -/
theorem defaults_eq : Layers.defaults = pure (defaultEntries {}) := by
  -- The text is taken apart piece by piece: as a whole it takes long to spell out.
  have hmark : Layers.defaultText.toList.head? ≠ some '\uFEFF' := by
    delta Layers.defaultText
    simp only [String.toList_append]
    decide
  have hlines : Toml.statements? (Layers.defaultText.toList.length + 2) Layers.defaultText.toList =
      some [.header [] "extractor", .pair [] "open" (.text "/**"), .pair [] "close" (.text "*/"),
        .pair [] "remove" (.text "*"), .header [] "output", .pair [] "format" (.text "json")] := by
    delta Layers.defaultText
    simp only [String.toList_append]
    cbv
  have hread : Toml.read Layers.defaultText = some (.table
      [("extractor", .table
        [("open", .text "/**"), ("close", .text "*/"), ("remove", .text "*")]),
      ("output", .table [("format", .text "json")])]) :=
    (Toml.read_of_statements? hmark hlines).trans rfl
  rw [Layers.defaults, SettingFile.entriesOf, hread]
  rfl

/-- The layer under all others holds the defaults. -/
theorem holds_defaults :
    (emptyTable.putEntries (defaultEntries {})).Holds (Settings.get {}) := by
  have hempty : Keyed.Sorted emptyTable.entries := List.Pairwise.nil
  refine ⟨sorted_putEntries hempty _, fun name => ?_⟩
  cases name
  all_goals exact ⟨_, rfl, sorted_assignAll hempty _, rfl⟩

/-! ## What is decoded -/

/-- A setting in which something is found is a table. -/
theorem content_eq_table (h : Keyed.get? table.entries key = some value) :
    table.content = .table table.entries := by
  obtain ⟨origin, content⟩ := table
  cases content with
  | table entries => rfl
  | _ => cases h

/-- A text is decoded as it is. -/
theorem decodeText_eq {text : String} (h : value.text? = some text) :
    value.decodeText = .ok text := by
  obtain ⟨origin, content⟩ := value
  cases content with
  | text value => exact congrArg Except.ok (Option.some.inj h)
  | _ => cases h

/-- A field that holds a text is decoded as the text. -/
theorem field?_text {text : String} (h : (Keyed.get? entries key).bind text? = some text)
    (place : ℕ) :
    (SettingRecord.named entries).field? key place decodeText = .ok (some text) := by
  obtain ⟨value, hvalue, htext⟩ := Option.bind_eq_some_iff.mp h
  simp only [SettingRecord.field?, hvalue, decodeText_eq htext]
  rfl

/-- The settings that a tree holds are decoded from it. -/
theorem Holds.decode (h : root.Holds values) :
    Settings.decode root = .ok (Settings.ofValues values) := by
  obtain ⟨extractor, hextractor, -, hopening⟩ := h.group .opening
  obtain ⟨_, heq, -, hclosing⟩ := h.group .closing
  obtain rfl := Option.some.inj (hextractor.symm.trans heq)
  obtain ⟨_, heq, -, hmarker⟩ := h.group .marker
  obtain rfl := Option.some.inj (hextractor.symm.trans heq)
  obtain ⟨output, houtput, -, hformat⟩ := h.group .format
  obtain ⟨_, hfound, -⟩ := Option.bind_eq_some_iff.mp hopening
  obtain ⟨_, hfound', -⟩ := Option.bind_eq_some_iff.mp hformat
  have hdelimiters : Settings.decodeDelimiters extractor =
      .ok (Settings.ofValues values).delimiters := by
    rw [Settings.decodeDelimiters, SettingRecord.ofSetting, content_eq_table hfound]
    simp only [SettingName.key] at hopening hclosing hmarker
    simp only [bind, Except.bind, field?_text hopening, field?_text hclosing, field?_text hmarker]
    rfl
  have hout : Settings.decodeFormat output = .ok (values .format) := by
    rw [Settings.decodeFormat, SettingRecord.ofSetting, content_eq_table hfound']
    simp only [SettingName.key] at hformat
    simp only [bind, Except.bind, field?_text hformat]
    rfl
  simp only [SettingName.group] at hextractor houtput
  simp only [Settings.decode, bind, Except.bind, SettingRecord.field?, hextractor, houtput,
    hdelimiters, hout]
  rfl

end Setting

end DocTree
