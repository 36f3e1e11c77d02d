import RecordWalk.Program
import RecordWalk.Proofs.CommandLine.Groups

/-!
# Which setting counts

A field of the configuration may be set on the command line and in the configuration file. The
command line goes first, then the file, then the default; lists of fixtures are never joined. What a
file sets is told by the entries of its mapping, one key for each field.

**Theorem (`loads_precedence`).** Let the arguments be groups, and let the file that they name, if
any, set some of the fields. Then there is exactly one configuration, the one of this rule. It is
the same in any order of the groups that keeps the names of fixtures in order, and each of its
fields depends only on its own option and its own key.
-/

namespace RecordWalk

/-! ## What a file sets -/

namespace Yaml

/-- The last entry with a key has a value. -/
def Holds (key : String) (y : Yaml) (entries : List (String × Yaml)) : Prop :=
  ∃ before after, entries = before ++ (key, y) :: after ∧ key ∉ after.map Prod.fst

theorem notMem_keys_iff {key : String} {entries : List (String × Yaml)} :
    key ∉ entries.map Prod.fst ↔ ∀ entry ∈ entries, (key != entry.1) = true := by
  simp only [bne_iff_ne, List.mem_map, not_exists, not_and]
  exact forall₂_congr fun _ _ => ne_comm

theorem entry?_eq_none_iff {key : String} {entries : List (String × Yaml)} :
    entry? key entries = none ↔ key ∉ entries.map Prod.fst := by
  rw [ entry?, List.lookup_eq_none_iff, notMem_keys_iff]
  simp only [List.mem_reverse]

theorem entry?_eq_some_iff {key : String} {y : Yaml} {entries : List (String × Yaml)} :
    entry? key entries = some y ↔ Holds key y entries := by
  rw [ entry?, List.lookup_eq_some_iff, Holds]
  constructor
  · rintro ⟨after, before, hentries, hafter⟩
    refine ⟨before.reverse, after.reverse, by simpa using congrArg List.reverse hentries, ?_⟩
    simpa only [notMem_keys_iff, List.mem_reverse] using hafter
  · rintro ⟨before, after, rfl, hafter⟩
    refine ⟨after.reverse, before.reverse, by simp, ?_⟩
    simpa only [notMem_keys_iff, List.mem_reverse] using hafter

/-- One of the keys of a mapping is the least one. -/
theorem exists_leastKey? {entries : List (String × Yaml)} (h : entries ≠ []) :
    ∃ least, leastKey? entries = some least ∧ least ∈ entries.map Prod.fst ∧
      ∀ key ∈ entries.map Prod.fst, least ≤ key := by
  induction entries with
  | nil => exact absurd rfl h
  | cons entry rest ih =>
    rw [leastKey?, List.map_cons]
    cases rest with
    | nil => exact ⟨entry.1, rfl, .head _, by simp⟩
    | cons next rest =>
      obtain ⟨least, hleast, hmem, hle⟩ := ih (List.cons_ne_nil next rest)
      rw [hleast]
      by_cases hlt : least < entry.1
      · refine ⟨least, by simp [hlt], .tail _ hmem, List.forall_mem_cons.2 ⟨?_, hle⟩⟩
        exact String.not_lt.1 fun h => String.lt_asymm h hlt
      · refine ⟨entry.1, by simp [hlt], .head _, List.forall_mem_cons.2 ⟨?_, fun key hkey => ?_⟩⟩
        · exact String.le_refl _
        · exact String.le_trans (String.not_lt.1 hlt) (hle key hkey)

theorem leastKey?_eq_some_iff {entries : List (String × Yaml)} {key : String} :
    leastKey? entries = some key ↔
      key ∈ entries.map Prod.fst ∧ ∀ k ∈ entries.map Prod.fst, key ≤ k := by
  cases entries with
  | nil => simp [leastKey?]
  | cons entry rest =>
    obtain ⟨least, hleast, hmem, hle⟩ := exists_leastKey? (List.cons_ne_nil entry rest)
    rw [hleast, Option.some.injEq]
    constructor
    · rintro rfl
      exact ⟨hmem, hle⟩
    · rintro ⟨hkey, hbelow⟩
      exact String.le_antisymm (hle key hkey) (hbelow least hmem)

theorem Holds.mem_keys {key : String} {y : Yaml} {entries : List (String × Yaml)}
    (h : Holds key y entries) : key ∈ entries.map Prod.fst := by
  obtain ⟨before, after, rfl, -⟩ := h
  simp

/-- A text is a name. So is the least key of a mapping, if its value is null. -/
def Names (name : String) : Yaml → Prop
  | text s => s = name
  | mapping entries => Holds name null entries ∧ ∀ key ∈ entries.map Prod.fst, name ≤ key
  | _ => False

theorem toNamed?_eq_some_iff {α : Type} {things : List α} {ofName? : String → Option α} {x : α}
    {y : Yaml} : y.toNamed? things ofName? = some x ↔
      (∃ name, ofName? name = some x ∧ y.Names name) ∨
        ∃ n, things[n]? = some x ∧ y = natural n := by
  cases y with
  | text s => simp [toNamed?, Names]
  | natural n => simp [toNamed?, Names]
  | mapping entries =>
    have hnatural : ¬ ∃ n, things[n]? = some x ∧ mapping entries = natural n := by simp
    rw [or_iff_left hnatural]
    constructor
    · intro h
      obtain ⟨key, hleast, hkey⟩ := Option.bind_eq_some_iff.1 h
      split at hkey
      next hnull =>
        exact ⟨key, hkey, entry?_eq_some_iff.1 hnull, (leastKey?_eq_some_iff.1 hleast).2⟩
      next => cases hkey
    · rintro ⟨name, hname, hnull, hle⟩
      have hleast := leastKey?_eq_some_iff.2 ⟨hnull.mem_keys, hle⟩
      simp [toNamed?, hleast, entry?_eq_some_iff.2 hnull, hname]
  | _ => simp [toNamed?, Names]

/-- The value of a key stands for something; where it stands for nothing, the key is missing. -/
def Sets {α : Type} (key : String) (IsValue : α → Yaml → Prop)
    (entries : List (String × Yaml)) : Option α → Prop
  | none => key ∉ entries.map Prod.fst
  | some x => ∃ y, Holds key y entries ∧ IsValue x y

theorem mapM_toText?_eq_some_iff {items : List Yaml} {names : List String} :
    items.mapM toText? = some names ↔ items = names.map text := by
  induction items generalizing names with
  | nil => simp [eq_comm]
  | cons item items ih =>
    cases item <;> cases names <;>
      simp [List.mapM_cons, toText?, ih, Option.bind_eq_some_iff, and_comm]

theorem toTexts?_eq_some_iff {y : Yaml} {names : List String} :
    y.toList? toText? = some names ↔ y = list (names.map text) := by
  cases y with
  | list items => simp [toList?, mapM_toText?_eq_some_iff]
  | _ => simp [toList?]

theorem toBool?_eq_some_iff {y : Yaml} {b : Bool} : y.toBool? = some b ↔ y = bool b := by
  cases y <;> simp [toBool?]

end Yaml

/-- A format is written by its name, as a text or in a mapping, or by its number. -/
def ReportFormat.IsWritten : ReportFormat → Yaml → Prop
  | text, y => y.Names "text" ∨ y = .natural 0
  | json, y => y.Names "json" ∨ y = .natural 1

theorem ReportFormat.toNamed?_eq_some_iff {y : Yaml} {f : ReportFormat} :
    y.toNamed? all ofLabel? = some f ↔ f.IsWritten y := by
  have hname (s : String) : ofLabel? s = some f ↔ s = f.label := by
    rw [ofLabel?_eq]
    split_ifs <;> cases f <;> simp_all [label]
  have hnumber (n : Nat) : all[n]? = some f ↔ n = all.idxOf f := by
    rcases n with _ | _ | n <;> cases f <;> simp [all]
  simp only [Yaml.toNamed?_eq_some_iff, hname, hnumber, exists_eq_left]
  cases f <;> rfl

namespace Layer

/-- The entries of a mapping set the fields of a layer, and no others. -/
structure IsSetBy (l : Layer) (entries : List (String × Yaml)) : Prop where
  fixtures : Yaml.Sets "fixtures" (fun names y => y = .list (names.map .text)) entries l.fixtures?
  strict : Yaml.Sets "strict_discrepancies" (fun b y => y = .bool b) entries l.strict?
  format : Yaml.Sets "report_format" ReportFormat.IsWritten entries l.format?

theorem setting?_eq_some_iff {α : Type} {key : String} {value? : Yaml → Option α}
    {IsValue : α → Yaml → Prop} (hvalue : ∀ {x y}, value? y = some x ↔ IsValue x y)
    {entries : List (String × Yaml)} {x? : Option α} :
    setting? key value? entries = some x? ↔ Yaml.Sets key IsValue entries x? := by
  unfold setting?
  cases x? <;> simp only [Yaml.Sets, ← Yaml.entry?_eq_none_iff, ← Yaml.entry?_eq_some_iff] <;>
    cases Yaml.entry? key entries <;> simp [hvalue]

theorem ofEntries?_eq_some_iff {entries : List (String × Yaml)} {l : Layer} :
    ofEntries? entries = some l ↔ l.IsSetBy entries := by
  simp only [ofEntries?, Option.bind_eq_bind, Option.bind_eq_some_iff, Option.some.injEq,
    setting?_eq_some_iff Yaml.toTexts?_eq_some_iff, setting?_eq_some_iff Yaml.toBool?_eq_some_iff,
    setting?_eq_some_iff ReportFormat.toNamed?_eq_some_iff]
  constructor
  · rintro ⟨_, hfixtures, _, hstrict, _, hformat, rfl⟩
    exact ⟨hfixtures, hstrict, hformat⟩
  · rintro ⟨hfixtures, hstrict, hformat⟩
    exact ⟨_, hfixtures, _, hstrict, _, hformat, rfl⟩

theorem ofFileText?_eq_some_iff {s : String} {l : Layer} :
    ofFileText? s = some l ↔ ∃ entries, Yaml.document? s = some entries ∧ l.IsSetBy entries := by
  simp only [ofFileText?, Option.bind_eq_bind, Option.bind_eq_some_iff, ofEntries?_eq_some_iff]

end Layer

/-! ## The rule -/

open CommandLine

/-- For each field what groups say, else what a file says, else the default. -/
def Config.ofGroups (groups : List Group) (file : Layer) : Config where
  fixtures :=
    if groups.filterMap Group.fixture? = [] then file.fixtures?.getD []
    else groups.filterMap Group.fixture?
  strict := if .flag .strict ∈ groups then true else file.strict?.getD false
  format := (groups.findSome? Group.format?).getD (file.format?.getD .text)

namespace CommandLine

/-- The arguments and the files give a configuration. -/
def Loads (arguments : List String) (files : String → Option String) (c : Config) : Prop :=
  ∃ a, parse arguments = .ok a ∧ a.config files = .ok c

/-- The file that groups name is there and sets the fields of a layer; where they name none, nothing
is set. -/
def FileSets (groups : List Group) (files : String → Option String) (file : Layer) : Prop :=
  match groups.findSome? Group.path? with
  | none => file = ⟨none, none, none⟩
  | some path => ∃ contents entries, files path = some contents ∧
      Yaml.document? contents = some entries ∧ file.IsSetBy entries

/-- Groups that can be read together, with what their file sets. -/
structure IsRequest (groups : List Group) (files : String → Option String) (file : Layer) :
    Prop where
  valid : ∀ g ∈ groups, g.IsValid
  noRivals : Group.NoRivals groups
  file : FileSets groups files file

theorem FileSets.fileLayer {groups : List Group} {files : String → Option String} {file : Layer}
    (h : FileSets groups files file) {a : Arguments}
    (ha : a.configFile? = groups.findSome? Group.path?) : a.fileLayer files = .ok file := by
  unfold FileSets at h
  unfold Arguments.fileLayer
  rw [ha]
  cases hpath : groups.findSome? Group.path? with
  | none =>
    rw [hpath] at h
    exact congrArg Except.ok (Eq.symm h)
  | some path =>
    rw [hpath] at h
    obtain ⟨contents, entries, hfile, hentries, hset⟩ := h
    simp only [hfile, Layer.ofFileText?_eq_some_iff.2 ⟨entries, hentries, hset⟩]

/-- The layer of groups goes on top of that of the file. -/
theorem overlay_adding (groups : List Group) (file : Layer) :
    (Config.default.overlay file).overlay (Arguments.empty.adding groups).layer =
      .ofGroups groups file := by
  simp only [Config.overlay, Config.ofGroups, Config.default, Arguments.layer, Arguments.adding,
    Arguments.empty, List.nil_append, Bool.false_or, Option.none_or, List.isEmpty_iff,
    List.contains_iff_mem, Config.mk.injEq, and_true]
  constructor <;> split_ifs <;> rfl

/-- **A request loads the configuration of the rule, and no other.** -/
theorem IsRequest.loads_iff {groups : List Group} {files : String → Option String} {file : Layer}
    (h : IsRequest groups files file) {c : Config} :
    Loads (groups.flatMap Group.words) files c ↔ c = .ofGroups groups file := by
  have hconfig : (Arguments.empty.adding groups).config files = .ok (.ofGroups groups file) := by
    rw [Arguments.config, h.file.fileLayer (Option.none_or), ← overlay_adding]
    rfl
  simp [Loads, parse_groups h.valid h.noRivals, hconfig, eq_comm]

/-- **The command line goes before the file, and the file before the default.** -/
theorem loads_precedence {groups : List Group} {files : String → Option String} {file : Layer}
    (h : IsRequest groups files file) :
    (∀ c, Loads (groups.flatMap Group.words) files c ↔ c = .ofGroups groups file) ∧
    (∀ groups' : List Group, groups.Perm groups' →
      groups.filterMap Group.fixture? = groups'.filterMap Group.fixture? →
        ∀ c, Loads (groups'.flatMap Group.words) files c ↔ c = .ofGroups groups file) ∧
    ∀ groups' files' file', IsRequest groups' files' file' → ∀ c c',
      Loads (groups.flatMap Group.words) files c → Loads (groups'.flatMap Group.words) files' c' →
        (groups.filterMap Group.fixture? = groups'.filterMap Group.fixture? →
          file.fixtures? = file'.fixtures? → c.fixtures = c'.fixtures) ∧
        ((.flag .strict ∈ groups ↔ .flag .strict ∈ groups') → file.strict? = file'.strict? →
          c.strict = c'.strict) ∧
        (groups.findSome? Group.format? = groups'.findSome? Group.format? →
          file.format? = file'.format? → c.format = c'.format) := by
  refine ⟨fun c => h.loads_iff, fun groups' hperm hfixtures c => ?_,
    fun groups' files' file' h' c c' hc hc' => ?_⟩
  · rw [Loads, parse_perm h.valid h.noRivals hperm hfixtures]
    exact h.loads_iff
  · obtain rfl := h.loads_iff.1 hc
    obtain rfl := h'.loads_iff.1 hc'
    refine ⟨fun hgroups hfile => ?_, fun hgroups hfile => ?_, fun hgroups hfile => ?_⟩
    · simp only [Config.ofGroups, hgroups, hfile]
    · simp only [Config.ofGroups, hgroups, hfile]
    · simp only [Config.ofGroups, hgroups, hfile]

/-- Two names before that of the file, a flag and a format that are only in the file; and the same
in another order. -/
theorem loads_precedence_mixed :
    let groups : List Group := [.option .fixture .shortAttached "b", .flag .debug,
      .option .configFile .longEquals "run.yml", .option .fixture .long "a"]
    let contents := "report_format: json\nstrict_discrepancies: true\nfixtures: [c]\n"
    let files : String → Option String := fun path =>
      if path = "run.yml" then some contents else none
    let file : Layer := ⟨some ["c"], some true, some .json⟩
    IsRequest groups files file ∧
      Loads ["-fb", "--debug", "--config-file=run.yml", "--fixture", "a"] files
        ⟨["b", "a"], true, .json⟩ ∧
      Loads ["--debug", "-fb", "--config-file=run.yml", "--fixture", "a"] files
        ⟨["b", "a"], true, .json⟩ := by
  intro groups contents files file
  have hfile : Layer.ofFileText? contents = some file := by decide +kernel
  obtain ⟨entries, hentries, hset⟩ := Layer.ofFileText?_eq_some_iff.1 hfile
  have hvalid : ∀ g ∈ groups, g.IsValid := by
    simp only [groups, List.forall_mem_cons]
    exact ⟨⟨trivial, rfl, by decide, by decide⟩, ⟨by decide, by decide⟩,
      ⟨(by decide : "run.yml" ≠ ""), trivial⟩,
      ⟨trivial, (by decide : "a".toList.head? ≠ some '-')⟩, nofun⟩
  have h : IsRequest groups files file :=
    ⟨hvalid, by simp [groups, Group.NoRivals, Group.Rivals], _, entries, rfl, hentries, hset⟩
  obtain ⟨hloads, hreorder, -⟩ := loads_precedence h
  exact ⟨h, (hloads _).2 (by decide), (hreorder _ (.swap _ _ _) rfl _).2 (by decide)⟩

end CommandLine

end RecordWalk
