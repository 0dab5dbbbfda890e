import DocTree.Proofs.SettingMerge
import Mathlib

/-!
# Which layer of settings counts

Calls add layers of settings to a loader: files that must be there, files that may be missing, and
overrides. Whatever the order of the calls, a setting has the value of its last override, or else
the one in the last file that sets it, or else its default; and loading fails only for want of a
file that must be there.
-/

namespace DocTree

/-! ## What a file sets -/

namespace Toml.Value

/-- The value under a key of a table. -/
def member? (value : Value) (key : String) : Option Value :=
  match value with
  | .table entries => Keyed.get? (Keyed.ofList entries) key
  | _ => none

/-- The text that a value is. -/
def text? : Value → Option String
  | .text value => some value
  | _ => none

/-- A document gives nothing but texts to the settings of the program: an entry that is stored in
one of their tables is that table, and what it has under one of their keys is a text. Whatever else
the document holds does not matter. -/
def GivesTexts (document : Value) : Prop :=
  ∃ entries, document = .table entries ∧ ∀ name : SettingName, ∀ entry ∈ entries,
    Setting.firstName entry.1 = name.group → entry.1 = name.group ∧
      ∃ items, entry.2 = .table items ∧ ∀ item ∈ items, Text.lower item.1 = name.key →
        item.1 = name.key ∧ ∃ text, item.2 = .text text

end Toml.Value

/-- The text that a document gives to a setting of the program. -/
def SettingName.textIn? (name : SettingName) (document : Toml.Value) : Option String :=
  ((document.member? name.group).bind (·.member? name.key)).bind (·.text?)

/-- Settings are made of entries one by one. -/
theorem Toml.Value.entriesToSettings_eq_map (origin : Option String)
    (entries : List (String × Toml.Value)) :
    Toml.Value.entriesToSettings origin entries =
      entries.map (Prod.map id (Toml.Value.toSetting origin)) := by
  induction entries with
  | nil => rfl
  | cons entry rest ih =>
    rw [Toml.Value.entriesToSettings, ih]
    rfl

/-- What is stored under a key of a table is the setting of what stands there. -/
theorem Toml.Value.get?_entriesToSettings (origin : Option String)
    (entries : List (String × Toml.Value)) (key : String) :
    Keyed.get? (Keyed.ofList (Toml.Value.entriesToSettings origin entries)) key =
      (Keyed.get? (Keyed.ofList entries) key).map (Toml.Value.toSetting origin) := by
  rw [Toml.Value.entriesToSettings_eq_map, Keyed.ofList_map, Keyed.get?_map]

/-- What is stored in a table is the setting of one of the entries, under its key. -/
theorem Toml.Value.mem_entriesToSettings {origin : Option String}
    {entries : List (String × Toml.Value)} {entry : String × Setting}
    (h : entry ∈ Keyed.ofList (Toml.Value.entriesToSettings origin entries)) :
    ∃ value, (entry.1, value) ∈ entries ∧ entry.2 = value.toSetting origin := by
  have hmem := Keyed.mem_of_mem_ofList h
  rw [Toml.Value.entriesToSettings_eq_map] at hmem
  obtain ⟨⟨key, value⟩, hvalue, rfl⟩ := List.mem_map.mp hmem
  exact ⟨value, hvalue, rfl⟩

namespace SettingFile

/-- The document in the file of a path. -/
def document? (files : Reading) (path : String) : Option Toml.Value :=
  match find? files path with
  | none => none
  | some (_, bytes) =>
    match decodeText bytes with
    | .error _ => none
    | .ok text => Toml.read text

/-- If there is a file of a path, it is a document that gives nothing but texts to the settings of
the program. -/
def GivesTexts (files : Reading) (path : String) : Prop :=
  find? files path ≠ none → ∃ document ∈ document? files path, document.GivesTexts

/-- The entries of a document that gives texts to settings give them these texts. -/
theorem entries_of_givesTexts {document : Toml.Value} (h : document.GivesTexts)
    (origin : Option String) :
    ∃ entries, document = .table entries ∧
      (∀ entry ∈ Keyed.ofList (Toml.Value.entriesToSettings origin entries),
        Setting.GivesTexts entry) ∧
      ∀ name, Setting.textAt? (Keyed.ofList (Toml.Value.entriesToSettings origin entries)) name =
        name.textIn? document := by
  obtain ⟨entries, rfl, hgives⟩ := h
  refine ⟨entries, rfl, fun entry hentry name hfirst => ?_, fun name => ?_⟩
  · obtain ⟨value, hvalue, heq⟩ := Toml.Value.mem_entriesToSettings hentry
    obtain ⟨hname, items, rfl, hitems⟩ := hgives name _ hvalue hfirst
    refine ⟨hname, _, by rw [heq]; rfl, Keyed.sorted_ofList _, fun item hitem hlower => ?_⟩
    obtain ⟨inner, hinner, heq⟩ := Toml.Value.mem_entriesToSettings hitem
    obtain ⟨hkey, text, rfl⟩ := hitems _ hinner hlower
    exact ⟨hkey, text, by rw [heq]; rfl⟩
  · rw [Setting.textAt?, Toml.Value.get?_entriesToSettings, SettingName.textIn?,
      Toml.Value.member?]
    cases hvalue : Keyed.get? (Keyed.ofList entries) name.group with
    | none => rfl
    | some value =>
      have hmem := Keyed.mem_of_mem_ofList (Keyed.mem_of_get? hvalue)
      obtain ⟨-, items, rfl, hitems⟩ := hgives name _ hmem (Setting.firstName_group name)
      rw [Option.map_some, Option.bind_some, Option.bind_some, Toml.Value.member?]
      have hentries : ((Toml.Value.table items).toSetting origin).entries =
          Keyed.ofList (Toml.Value.entriesToSettings origin items) := rfl
      rw [hentries, Toml.Value.get?_entriesToSettings]
      cases hitem : Keyed.get? (Keyed.ofList items) name.key with
      | none => rfl
      | some item =>
        have hmem := Keyed.mem_of_mem_ofList (Keyed.mem_of_get? hitem)
        obtain ⟨-, text, rfl⟩ := hitems _ hmem name.lower_key
        rfl

/-- A file that is there is loaded as what it gives to the settings of the program. -/
theorem load_of_givesTexts {files : Reading} {path : String} (h : GivesTexts files path)
    {required : Bool} (hthere : required = true → find? files path ≠ none) :
    ∃ entries, load files path required = .ok entries ∧ Keyed.Sorted entries ∧
      (∀ entry ∈ entries, Setting.GivesTexts entry) ∧
      ∀ name : SettingName,
        Setting.textAt? entries name = (document? files path).bind name.textIn? := by
  cases hfound : find? files path with
  | none =>
    have hoptional : required = false := Bool.eq_false_iff.mpr fun hreq => hthere hreq hfound
    refine ⟨[], ?_, .nil, by simp, fun name => ?_⟩
    · simp [load, hfound, hoptional]
    · rw [document?, hfound]
      rfl
  | some found =>
    obtain ⟨shown, bytes⟩ := found
    obtain ⟨document, hdocument, hgives⟩ := h (by simp [hfound])
    have hread := hdocument
    simp only [document?, hfound] at hread
    cases hdecoded : decodeText bytes with
    | error fault =>
      rw [hdecoded] at hread
      cases hread
    | ok text =>
      replace hread : Toml.read text = some document := by rwa [hdecoded] at hread
      obtain ⟨entries, rfl, hentries, htexts⟩ := entries_of_givesTexts hgives (some shown)
      refine ⟨_, ?_, Keyed.sorted_ofList _, hentries, fun name => ?_⟩
      · simp only [load, hfound, hdecoded, entriesOf, hread]
      · rw [htexts, hdocument, Option.bind_some]

end SettingFile

/-! ## Calls -/

namespace SettingSource

/-- The file must be there and is missing. -/
def Lacks (files : Reading) (source : SettingSource) : Prop :=
  source.required = true ∧ SettingFile.find? files source.path = none

/-- The text that the file gives to a setting of the program. -/
def textOf? (files : Reading) (name : SettingName) (source : SettingSource) : Option String :=
  (SettingFile.document? files source.path).bind name.textIn?

/-- A tree of settings with the entries of the file. -/
def addTo (files : Reading) (root : Setting) (source : SettingSource) :
    Except SettingFault Setting := do
  return root.putEntries (← SettingFile.load files source.path source.required)

end SettingSource

/-- A call that adds a layer of settings. -/
inductive LayerCall where
  /-- Add a file that must be there. -/
  | file (path : String)
  /-- Add a file that may be missing. -/
  | optionalFile (path : String)
  | override (name : SettingName) (value : String)
  deriving DecidableEq, Repr

namespace LayerCall

/-- The layers after a call. -/
def apply (layers : Layers) : LayerCall → Except SettingFault Layers
  | file path => .ok (layers.withFile path)
  | optionalFile path => .ok (layers.withOptionalFile path)
  | override name value => layers.withOverride name.path (.text value)

/-- The file that a call adds. -/
def source? : LayerCall → Option SettingSource
  | file path => some { path, required := true }
  | optionalFile path => some { path, required := false }
  | override _ _ => none

/-- The setting that a call overrides, and its value. -/
def override? : LayerCall → Option (SettingName × String)
  | override name value => some (name, value)
  | _ => none

/-- The value that a call overrides a setting with. -/
def overrideOf? (name : SettingName) (call : LayerCall) : Option String :=
  call.override?.bind fun given => if given.1 = name then some given.2 else none

/-- The value that the file of a call sets a setting to. -/
def textOf? (files : Reading) (name : SettingName) (call : LayerCall) : Option String :=
  call.source?.bind (SettingSource.textOf? files name)

/-- The file of a call, if there is one, gives nothing but texts to the settings of the program. -/
def GivesTexts (files : Reading) (call : LayerCall) : Prop :=
  ∀ source ∈ call.source?, SettingFile.GivesTexts files source.path

end LayerCall

/-- The settings after calls on a loader that starts without layers. -/
def Settings.ofCalls (files : Reading) (calls : List LayerCall) : Except SettingFault Settings := do
  load (← calls.foldlM LayerCall.apply {}) files

/-! ## The last of several values -/

/-- The last value is the last one of the rest, or else the first one. -/
theorem getLast?_filterMap_cons {α β : Type} (f : α → Option β) (item : α) (rest : List α) :
    ((item :: rest).filterMap f).getLast? = (rest.filterMap f).getLast?.or (f item) := by
  cases hitem : f item with
  | none => rw [List.filterMap_cons_none hitem, Option.or_none]
  | some value =>
    rw [List.filterMap_cons_some hitem, List.getLast?_cons]
    cases (rest.filterMap f).getLast? <;> rfl

namespace SettingName

/-- The last value given to a setting. -/
def lastOf? (name : SettingName) (given : List (SettingName × String)) : Option String :=
  (given.filterMap fun given => if given.1 = name then some given.2 else none).getLast?

/-- Overrides of which the earlier ones of a setting are dropped when it is overridden anew. -/
def overrideAnew (overrides : List (SettingName × String)) (given : SettingName × String) :
    List (SettingName × String) :=
  overrides.filter (fun other => other.1 != given.1) ++ [given]

/-- The override of a setting among others. -/
def toOverride (given : SettingName × String) : List KeyStep × Content :=
  (given.1.steps, .text given.2)

/-- What is dropped does not matter for the last value. -/
theorem lastOf?_overrideAnew (name : SettingName) (overrides : List (SettingName × String))
    (given : SettingName × String) :
    name.lastOf? (overrideAnew overrides given) =
      (name.lastOf? [given]).or (name.lastOf? overrides) := by
  rw [lastOf?, lastOf?, lastOf?, overrideAnew, List.filterMap_append, List.getLast?_append]
  by_cases hname : given.1 = name
  · simp [hname]
  · have hfilter : (overrides.filter fun other => other.1 != given.1).filterMap
        (fun other => if other.1 = name then some other.2 else none) =
          overrides.filterMap fun other => if other.1 = name then some other.2 else none := by
      rw [List.filterMap_filter]
      refine List.filterMap_congr fun other _ => ?_
      by_cases hother : other.1 = name
      · simp [hother, Ne.symm hname]
      · simp [hother]
    rw [hfilter]

/-- The last value given to a setting, among what was overridden before and is overridden anew. -/
theorem lastOf?_foldl_overrideAnew (name : SettingName)
    (given overrides : List (SettingName × String)) :
    name.lastOf? (given.foldl overrideAnew overrides) =
      (name.lastOf? given).or (name.lastOf? overrides) := by
  induction given generalizing overrides with
  | nil => rfl
  | cons first rest ih =>
    have hfirst : name.lastOf? (first :: rest) = (name.lastOf? rest).or (name.lastOf? [first]) := by
      rw [lastOf?, getLast?_filterMap_cons, lastOf?, lastOf?, getLast?_filterMap_cons]
      rfl
    rw [List.foldl_cons, ih, lastOf?_overrideAnew, hfirst, Option.or_assoc]

end SettingName

namespace LayerCall

open SettingName

/-- Overriding a setting anew drops the earlier override. -/
theorem withOverride_eq (sources : List SettingSource) (overrides : List (SettingName × String))
    (name : SettingName) (value : String) :
    Layers.withOverride { sources, overrides := overrides.map toOverride } name.path (.text value) =
      .ok { sources, overrides := (overrideAnew overrides (name, value)).map toOverride } := by
  have hsteps : (fun other : SettingName × String => (toOverride other).1 != name.steps) =
      fun other => other.1 != name := by
    funext other
    rw [Bool.eq_iff_iff, bne_iff_ne, bne_iff_ne, toOverride, ne_eq, steps_inj]
  rw [Layers.withOverride, name.read_path]
  simp only [overrideAnew, List.map_append, List.filter_map, Function.comp_def, hsteps]
  rfl

/-- Calls add their files in order, and their overrides in order where a later one of a setting
drops the earlier. -/
theorem foldlM_apply (calls : List LayerCall) (sources : List SettingSource)
    (overrides : List (SettingName × String)) :
    calls.foldlM apply { sources, overrides := overrides.map toOverride } =
      .ok { sources := sources ++ calls.filterMap source?
            overrides :=
              ((calls.filterMap override?).foldl overrideAnew overrides).map toOverride } := by
  induction calls generalizing sources overrides with
  | nil =>
    rw [List.filterMap_nil, List.append_nil]
    rfl
  | cons call rest ih =>
    cases call with
    | file path =>
      have hrest := ih (sources ++ [{ path, required := true }]) overrides
      rw [List.append_assoc] at hrest
      exact hrest
    | optionalFile path =>
      have hrest := ih (sources ++ [{ path, required := false }]) overrides
      rw [List.append_assoc] at hrest
      exact hrest
    | override name value =>
      rw [List.foldlM_cons, apply, withOverride_eq]
      exact ih sources _

end LayerCall

/-! ## Loading the layers -/

namespace Setting

variable {root : Setting} {values : SettingName → String} {files : Reading}

/-- Loading files one after another stops at the first that must be there and is missing. If there
is none, each setting has the text of the last file that sets it, or else the one that it had. -/
theorem Holds.loadFiles (h : root.Holds values) {sources : List SettingSource}
    (hsources : ∀ source ∈ sources, SettingFile.GivesTexts files source.path) :
    (∃ source ∈ sources, source.Lacks files ∧
      sources.foldlM (SettingSource.addTo files) root = .error (.noFile source.path)) ∨
    ((∀ source ∈ sources, ¬source.Lacks files) ∧ ∃ merged,
      sources.foldlM (SettingSource.addTo files) root = .ok merged ∧ merged.Holds fun name =>
        (sources.filterMap (SettingSource.textOf? files name)).getLast?.getD (values name)) := by
  induction sources generalizing root values with
  | nil => exact .inr ⟨by simp, root, rfl, h⟩
  | cons source rest ih =>
    by_cases hlacks : source.Lacks files
    · refine .inl ⟨source, List.mem_cons_self, hlacks, ?_⟩
      rw [List.foldlM_cons, SettingSource.addTo, SettingFile.load, hlacks.2, hlacks.1]
      rfl
    · have hthere : source.required = true → SettingFile.find? files source.path ≠ none :=
        fun hrequired hnone => hlacks ⟨hrequired, hnone⟩
      obtain ⟨entries, hload, hsorted, hgives, htexts⟩ :=
        SettingFile.load_of_givesTexts (hsources source List.mem_cons_self) hthere
      have hstored := h.putEntries hsorted hgives
      rw [List.foldlM_cons, SettingSource.addTo, hload]
      rcases ih hstored fun other hother => hsources other (List.mem_cons_of_mem _ hother) with
        ⟨other, hother, hmissing, heq⟩ | ⟨hrest, merged, heq, hmerged⟩
      · exact .inl ⟨other, List.mem_cons_of_mem _ hother, hmissing, heq⟩
      · refine .inr ⟨List.forall_mem_cons.mpr ⟨hlacks, hrest⟩, merged, heq, ?_⟩
        refine hmerged.congr fun name => ?_
        rw [getLast?_filterMap_cons, Option.getD_or, htexts]
        rfl

/-- When settings are overridden one after another, each has its last new value, or else the one
that it had. -/
theorem Holds.override (h : root.Holds values) (overrides : List (SettingName × String)) :
    ((overrides.map SettingName.toOverride).foldl
      (fun root (path, content) => Setting.put { origin := none, content } path root) root).Holds
        fun name => (name.lastOf? overrides).getD (values name) := by
  induction overrides generalizing root values with
  | nil => exact h
  | cons given rest ih =>
    refine (ih (h.put given.1 given.2)).congr fun name => ?_
    rw [SettingName.lastOf?, SettingName.lastOf?, getLast?_filterMap_cons, Option.getD_or]
    by_cases hname : given.1 = name
    · rw [if_pos hname, if_pos hname.symm]
      rfl
    · rw [if_neg hname, if_neg (Ne.symm hname)]
      rfl

end Setting

/-! ## Precedence -/

namespace Settings

variable {files : Reading} {calls : List LayerCall}

/-- The value of a setting by precedence: that of its last override, or else the one in the last
file that sets it, or else its default. -/
def byPrecedence (files : Reading) (calls : List LayerCall) (name : SettingName) : String :=
  ((calls.filterMap (LayerCall.overrideOf? name)).getLast?.or
    (calls.filterMap (LayerCall.textOf? files name)).getLast?).getD (get {} name)

/-- Of the calls, only the files in order and the overrides in order count. -/
theorem ofCalls_eq_load (files : Reading) (calls : List LayerCall) :
    ofCalls files calls =
      load { sources := calls.filterMap LayerCall.source?
             overrides := ((calls.filterMap LayerCall.override?).foldl
               SettingName.overrideAnew []).map SettingName.toOverride } files := by
  have hlayers : calls.foldlM LayerCall.apply {} =
      pure { sources := calls.filterMap LayerCall.source?
             overrides := ((calls.filterMap LayerCall.override?).foldl
               SettingName.overrideAnew []).map SettingName.toOverride } :=
    LayerCall.foldlM_apply calls [] []
  rw [ofCalls, hlayers, pure_bind]

/-- A file that must be there was added as one. -/
theorem file_mem_of_lacks {source : SettingSource}
    (hsource : source ∈ calls.filterMap LayerCall.source?) (hlacks : source.Lacks files) :
    LayerCall.file source.path ∈ calls := by
  obtain ⟨call, hcall, heq⟩ := List.mem_filterMap.mp hsource
  cases call with
  | file path =>
    obtain rfl := Option.some.inj heq
    exact hcall
  | optionalFile path =>
    obtain rfl := Option.some.inj heq
    exact absurd hlacks.1 Bool.false_ne_true
  | override name value => cases heq

/-- What counts by precedence is the last override that is kept and the last file in order. -/
theorem byPrecedence_eq (files : Reading) (calls : List LayerCall) (name : SettingName) :
    byPrecedence files calls name =
      (name.lastOf? ((calls.filterMap LayerCall.override?).foldl SettingName.overrideAnew [])).getD
        (((calls.filterMap LayerCall.source?).filterMap
          (SettingSource.textOf? files name)).getLast?.getD (get {} name)) := by
  rw [SettingName.lastOf?_foldl_overrideAnew, SettingName.lastOf?, List.filterMap_filterMap,
    List.filterMap_filterMap, byPrecedence, Option.getD_or]
  exact congrArg (Option.getD · _) Option.or_none.symm

/-- A call that gives nothing to a setting does not matter for it. -/
theorem byPrecedence_append_cons {before after : List LayerCall} {call : LayerCall}
    {name : SettingName} (hoverride : call.overrideOf? name = none)
    (htext : call.textOf? files name = none) :
    byPrecedence files (before ++ call :: after) name =
      byPrecedence files (before ++ after) name := by
  rw [byPrecedence, byPrecedence, List.filterMap_append, List.filterMap_append,
    List.filterMap_append, List.filterMap_append, List.filterMap_cons_none hoverride,
    List.filterMap_cons_none htext]

/-- Settings are loaded by precedence unless a file that must be there is missing, and then one such
file is named. -/
theorem ofCalls_error_or_ok (h : ∀ call ∈ calls, call.GivesTexts files) :
    (∃ path, LayerCall.file path ∈ calls ∧ SettingFile.find? files path = none ∧
      ofCalls files calls = .error (.noFile path)) ∨
    ((¬∃ path, LayerCall.file path ∈ calls ∧ SettingFile.find? files path = none) ∧
      ofCalls files calls = .ok (ofValues (byPrecedence files calls))) := by
  have hsources : ∀ source ∈ calls.filterMap LayerCall.source?,
      SettingFile.GivesTexts files source.path := by
    intro source hsource
    obtain ⟨call, hcall, heq⟩ := List.mem_filterMap.mp hsource
    exact h call hcall source heq
  have hmerge (layers : Layers) : layers.merge files =
      layers.sources.foldlM (SettingSource.addTo files)
        (Setting.emptyTable.putEntries (Setting.defaultEntries {})) >>= fun merged =>
          .ok (layers.overrides.foldl
            (fun root (path, content) => Setting.put { origin := none, content } path root)
            merged) := by
    rw [Layers.merge, Setting.defaults_eq, pure_bind]
    rfl
  rw [ofCalls_eq_load, load, hmerge]
  rcases Setting.holds_defaults.loadFiles hsources with
    ⟨source, hsource, hlacks, heq⟩ | ⟨hthere, merged, heq, hmerged⟩
  · refine .inl ⟨source.path, file_mem_of_lacks hsource hlacks, hlacks.2, ?_⟩
    rw [heq]
    rfl
  · refine .inr ⟨fun ⟨path, hcall, hmissing⟩ => ?_, ?_⟩
    · exact hthere _ (List.mem_filterMap.mpr ⟨_, hcall, rfl⟩) ⟨rfl, hmissing⟩
    · rw [heq]
      have hheld := hmerged.override ((calls.filterMap LayerCall.override?).foldl
        SettingName.overrideAnew [])
      exact (hheld.congr fun name => (byPrecedence_eq files calls name).symm).decode

/-- Loading fails exactly for want of a file that must be there, and otherwise gives every setting
by precedence; so only the order of the files and that of the overrides matter, and a call that
gives nothing to a setting leaves it as it is without the call. -/
theorem ofCalls_by_precedence (h : ∀ call ∈ calls, call.GivesTexts files) :
    ((∃ fault, ofCalls files calls = .error fault) ↔
      ∃ path, LayerCall.file path ∈ calls ∧ SettingFile.find? files path = none) ∧
    (∀ settings, ofCalls files calls = .ok settings → ∀ name, settings.get name =
      ((calls.filterMap (LayerCall.overrideOf? name)).getLast?.or
        (calls.filterMap (LayerCall.textOf? files name)).getLast?).getD (get {} name)) ∧
    (∀ calls' : List LayerCall,
      calls'.filterMap LayerCall.source? = calls.filterMap LayerCall.source? →
      calls'.filterMap LayerCall.override? = calls.filterMap LayerCall.override? →
      ofCalls files calls' = ofCalls files calls) ∧
    ∀ before call after settings, calls = before ++ call :: after →
      ofCalls files calls = .ok settings →
      ∃ settings', ofCalls files (before ++ after) = .ok settings' ∧
        ∀ name, call.overrideOf? name = none → call.textOf? files name = none →
          settings.get name = settings'.get name := by
  refine ⟨?fails, ?values, ?order, ?siblings⟩
  case fails =>
    rcases ofCalls_error_or_ok h with ⟨path, hcall, hmissing, heq⟩ | ⟨hthere, heq⟩
    · exact ⟨fun _ => ⟨path, hcall, hmissing⟩, fun _ => ⟨_, heq⟩⟩
    · refine ⟨fun ⟨fault, hfault⟩ => ?_, fun hmissing => absurd hmissing hthere⟩
      rw [heq] at hfault
      cases hfault
  case values =>
    intro settings hsettings name
    rcases ofCalls_error_or_ok h with ⟨path, -, -, heq⟩ | ⟨-, heq⟩
    all_goals rw [heq] at hsettings; cases hsettings
    exact get_ofValues _ name
  case order =>
    intro calls' hsources hoverrides
    rw [ofCalls_eq_load, ofCalls_eq_load, hsources, hoverrides]
  case siblings =>
    rintro before call after settings rfl hsettings
    have hsubset : before ++ after ⊆ before ++ call :: after :=
      ((List.sublist_cons_self call after).append_left before).subset
    rcases ofCalls_error_or_ok h with ⟨path, -, -, heq⟩ | ⟨hthere, heq⟩
    all_goals rw [heq] at hsettings; cases hsettings
    rcases ofCalls_error_or_ok fun other hother => h other (hsubset hother) with
      ⟨path, hcall, hmissing, -⟩ | ⟨-, heq'⟩
    · exact absurd ⟨path, hsubset hcall, hmissing⟩ hthere
    · refine ⟨_, heq', fun name hoverride htext => ?_⟩
      rw [get_ofValues, get_ofValues, byPrecedence_append_cons hoverride htext]

end Settings

/-! ## A list of calls -/

/-- A document of tables of texts, all under names in lower case, gives nothing but texts. -/
theorem Toml.Value.givesTexts_of_tables {entries : List (String × Toml.Value)}
    (h : ∀ entry ∈ entries, Setting.firstName entry.1 = entry.1 ∧
      ∃ items, entry.2 = .table items ∧
        ∀ item ∈ items, Text.lower item.1 = item.1 ∧ ∃ text, item.2 = .text text) :
    (Toml.Value.table entries).GivesTexts := by
  refine ⟨entries, rfl, fun name entry hentry hfirst => ?_⟩
  obtain ⟨hname, items, heq, hitems⟩ := h entry hentry
  refine ⟨hname.symm.trans hfirst, items, heq, fun item hitem hlower => ?_⟩
  obtain ⟨hkey, htext⟩ := hitems item hitem
  exact ⟨hkey.symm.trans hlower, htext⟩

/-- A file that sets two settings. -/
def projectText : String :=
  "[extractor]\nopen = \"<!--\"\n[output]\nformat = \"yaml\"\n"

/-- A file that sets one of them and a sibling of the other. -/
def userText : String :=
  "output.format = \"text\"\n[extractor]\nclose = \"-->\"\n"

/-- The two files and no others. -/
def layeredFiles : Reading := fun path =>
  if path = "project.toml" then .ok projectText.toUTF8
  else if path = "user.toml" then .ok userText.toUTF8
  else .error .notFound

/-- The calls of the two files, and overrides of one setting before and between them. -/
def layeredCalls : List LayerCall :=
  [.override .opening "#", .optionalFile "project.toml", .override .opening "(*",
    .file "user.toml"]

/-- What the first file holds. -/
def projectDocument : Toml.Value :=
  .table [("extractor", .table [("open", .text "<!--")]),
    ("output", .table [("format", .text "yaml")])]

/-- What the second file holds. -/
def userDocument : Toml.Value :=
  .table [("output", .table [("format", .text "text")]),
    ("extractor", .table [("close", .text "-->")])]

/-- The first file is read. -/
theorem document?_project :
    SettingFile.document? layeredFiles "project.toml" = some projectDocument := by
  have hlines : Toml.statements? (projectText.toList.length + 2) projectText.toList = some
      [.header [] "extractor", .pair [] "open" (.text "<!--"), .header [] "output",
        .pair [] "format" (.text "yaml")] := by cbv
  have hread : Toml.read projectText = some projectDocument :=
    (Toml.read_of_statements? (by decide) hlines).trans rfl
  have hdocument : SettingFile.document? layeredFiles "project.toml" = Toml.read projectText := rfl
  rw [hdocument, hread]

/-- The second file is read. -/
theorem document?_user : SettingFile.document? layeredFiles "user.toml" = some userDocument := by
  have hlines : Toml.statements? (userText.toList.length + 2) userText.toList = some
      [.pair ["output"] "format" (.text "text"), .header [] "extractor",
        .pair [] "close" (.text "-->")] := by cbv
  have hread : Toml.read userText = some userDocument :=
    (Toml.read_of_statements? (by decide) hlines).trans rfl
  have hdocument : SettingFile.document? layeredFiles "user.toml" = Toml.read userText := rfl
  rw [hdocument, hread]

/-- The files give nothing but texts to the settings of the program. -/
theorem givesTexts_layeredCalls : ∀ call ∈ layeredCalls, call.GivesTexts layeredFiles := by
  have hextractor : Setting.firstName "extractor" = "extractor" := rfl
  have houtput : Setting.firstName "output" = "output" := rfl
  have hproject : projectDocument.GivesTexts := by
    refine Toml.Value.givesTexts_of_tables ?_
    simp only [List.forall_mem_cons]
    refine ⟨⟨hextractor, _, rfl, ?_⟩, ⟨houtput, _, rfl, ?_⟩, by simp⟩
    all_goals exact List.forall_mem_singleton.mpr ⟨by decide, _, rfl⟩
  have huser : userDocument.GivesTexts := by
    refine Toml.Value.givesTexts_of_tables ?_
    simp only [List.forall_mem_cons]
    refine ⟨⟨houtput, _, rfl, ?_⟩, ⟨hextractor, _, rfl, ?_⟩, by simp⟩
    all_goals exact List.forall_mem_singleton.mpr ⟨by decide, _, rfl⟩
  intro call hcall source hsource
  simp only [layeredCalls, List.mem_cons, List.not_mem_nil, or_false] at hcall
  rcases hcall with rfl | rfl | rfl | rfl
  all_goals cases hsource
  · exact fun _ => ⟨_, document?_project, hproject⟩
  · exact fun _ => ⟨_, document?_user, huser⟩

/-- The last override counts before the files and the second file before the first, and the marker,
which nothing sets, has its default. -/
theorem Settings.ofCalls_by_precedence_layeredCalls :
    (∀ call ∈ layeredCalls, call.GivesTexts layeredFiles) ∧
      ∃ settings, Settings.ofCalls layeredFiles layeredCalls = .ok settings ∧
        settings.get .opening = "(*" ∧ settings.get .closing = "-->" ∧
        settings.get .marker = "*" ∧ settings.get .format = "text" := by
  obtain ⟨hfails, hvalues, -⟩ := Settings.ofCalls_by_precedence givesTexts_layeredCalls
  refine ⟨givesTexts_layeredCalls, ?_⟩
  cases hload : Settings.ofCalls layeredFiles layeredCalls with
  | error fault =>
    obtain ⟨path, hcall, hmissing⟩ := hfails.mp ⟨fault, hload⟩
    obtain rfl : path = "user.toml" := by simpa [layeredCalls] using hcall
    cases hmissing
  | ok settings =>
    have htexts (name : SettingName) :
        layeredCalls.filterMap (LayerCall.textOf? layeredFiles name) =
          [projectDocument, userDocument].filterMap name.textIn? := by
      simp only [layeredCalls, List.filterMap_cons, List.filterMap_nil, LayerCall.textOf?,
        LayerCall.source?, Option.bind_none, Option.bind_some, SettingSource.textOf?,
        document?_project, document?_user]
    refine ⟨settings, rfl, ?_, ?_, ?_, ?_⟩
    all_goals
      rw [hvalues settings hload, htexts]
      rfl

end DocTree
