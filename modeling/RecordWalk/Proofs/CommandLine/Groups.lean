import Mathlib.Data.List.Perm.Basic
import RecordWalk.Proofs.CommandLine
import RecordWalk.Proofs.Json.RoundTrip

/-!
# Groups of arguments

The arguments of a command line come in groups: an option with its value, in one of five spellings,
or a flag. An option whose value is an argument of its own is pending for a while after its group,
so what a group does is seen in the arguments that the state settles to and not in the state.

**Theorem (`parse_groups`).** If no option or flag but the fixture option occurs twice, groups are
accepted, and each field of the arguments depends only on the groups that are for it.

**Theorem (`parse_perm`).** Their order does not matter, save that of the names of fixtures.
-/

namespace RecordWalk

theorem ReportFormat.ofLabel?_eq (s : String) :
    ofLabel? s = if s = "text" then some text else if s = "json" then some json else none := by
  split_ifs with htext hjson
  · rw [htext]
    rfl
  · rw [hjson]
    rfl
  · simp [ofLabel?, all, label, Ne.symm htext, Ne.symm hjson]

namespace CommandLine

/-! ## Groups -/

def Opt.name : Opt → String
  | configFile => "config-file"
  | fixture => "fixture"
  | format => "format"

def Flag.name : Flag → String
  | strict => "strict"
  | list => "list"
  | debug => "debug"
  | help => "help"
  | version => "version"

/-- The values that an option takes. -/
def Opt.Accepts : Opt → String → Prop
  | configFile, value => value ≠ ""
  | fixture, _ => True
  | format, value => value = "text" ∨ value = "json"

/-- How an option and its value are written. -/
inductive Spelling where
  /-- As in `--fixture name`. -/
  | long
  /-- As in `--fixture=name`. -/
  | longEquals
  /-- As in `-f name`. -/
  | short
  /-- As in `-f=name`. -/
  | shortEquals
  /-- As in `-fname`. -/
  | shortAttached
deriving DecidableEq

/-- Only the fixture option has a letter. A value that is an argument of its own does not begin with
a dash, and one that follows the letter is there and does not begin with an equals sign. -/
def Spelling.Suits (o : Opt) (value : String) : Spelling → Prop
  | long => value.toList.head? ≠ some '-'
  | longEquals => True
  | short => o = .fixture ∧ value.toList.head? ≠ some '-'
  | shortEquals => o = .fixture
  | shortAttached => o = .fixture ∧ value ≠ "" ∧ value.toList.head? ≠ some '='

/-- An option with its value, or a flag. -/
inductive Group where
  | option (o : Opt) (spelling : Spelling) (value : String)
  | flag (f : Flag)
deriving DecidableEq

namespace Group

/-- The arguments of a group. -/
def words : Group → List String
  | option o .long value => ["--" ++ o.name, value]
  | option o .longEquals value => ["--" ++ o.name ++ "=" ++ value]
  | option _ .short value => ["-f", value]
  | option _ .shortEquals value => ["-f=" ++ value]
  | option _ .shortAttached value => ["-f" ++ value]
  | flag f => ["--" ++ f.name]

/-- The option takes the value and is written in a way that suits both. The flag is not one of those
that stop the reading. -/
def IsValid : Group → Prop
  | option o spelling value => o.Accepts value ∧ spelling.Suits o value
  | flag f => f ≠ .help ∧ f ≠ .version

/-- Two groups of the same kind, of which a command line may have only one. -/
def Rivals : Group → Group → Prop
  | option o _ _, option o' _ _ => o = o' ∧ o ≠ .fixture
  | flag f, flag f' => f = f'
  | _, _ => False

def path? : Group → Option String
  | option .configFile _ value => some value
  | _ => none

def fixture? : Group → Option String
  | option .fixture _ value => some value
  | _ => none

def format? : Group → Option ReportFormat
  | option .format _ value =>
    if value = "text" then some .text else if value = "json" then some .json else none
  | _ => none

theorem Rivals.symm {g h : Group} (hr : g.Rivals h) : h.Rivals g := by
  cases g <;> cases h <;> grind [Rivals]

/-- No two groups are rivals. -/
def NoRivals (groups : List Group) : Prop := groups.Pairwise fun g h => ¬ g.Rivals h

theorem NoRivals.perm {groups groups' : List Group} (h : NoRivals groups)
    (hperm : groups.Perm groups') : NoRivals groups' :=
  (hperm.pairwise_iff fun hgh hhg => hgh hhg.symm).1 h

/-- A group with some option. -/
def HasOption (o : Opt) (g : Group) : Prop := ∃ spelling value, g = option o spelling value

theorem HasOption.rivals {o : Opt} {g h : Group} (hg : g.HasOption o) (ho : o ≠ .fixture)
    (hh : h.HasOption o) : g.Rivals h := by
  obtain ⟨_, _, rfl⟩ := hg
  obtain ⟨_, _, rfl⟩ := hh
  exact ⟨rfl, ho⟩

theorem hasOption_of_path? {g : Group} {x : String} (h : g.path? = some x) :
    g.HasOption .configFile := by
  unfold path? at h
  split at h
  · exact ⟨_, _, rfl⟩
  · cases h

theorem hasOption_of_format? {g : Group} {x : ReportFormat} (h : g.format? = some x) :
    g.HasOption .format := by
  unfold format? at h
  split at h
  · exact ⟨_, _, rfl⟩
  · cases h

end Group

namespace Arguments

/-- The arguments with groups added to them. -/
def adding (a : Arguments) (groups : List Group) : Arguments where
  configFile? := a.configFile?.or (groups.findSome? Group.path?)
  fixtures := a.fixtures ++ groups.filterMap Group.fixture?
  strict := a.strict || groups.contains (.flag .strict)
  format? := a.format?.or (groups.findSome? Group.format?)
  list := a.list || groups.contains (.flag .list)
  debug := a.debug || groups.contains (.flag .debug)

/-- Arguments to which a group may be added. -/
def Admits (a : Arguments) : Group → Prop
  | .option .configFile _ _ => a.configFile? = none
  | .option .fixture _ _ => True
  | .option .format _ _ => a.format? = none
  | .flag .strict => a.strict = false
  | .flag .list => a.list = false
  | .flag .debug => a.debug = false
  | .flag .help | .flag .version => True

theorem adding_nil (a : Arguments) : a.adding [] = a := by simp [adding]

theorem adding_cons (a : Arguments) (g : Group) (groups : List Group) :
    a.adding (g :: groups) = (a.adding [g]).adding groups := by
  have hor {α : Type} (f : Group → Option α) (x? : Option α) :
      x?.or ((g :: groups).findSome? f) = (x?.or ([g].findSome? f)).or (groups.findSome? f) := by
    rw [← List.singleton_append, List.findSome?_append, Option.or_assoc]
  have hfixtures : (g :: groups).filterMap Group.fixture? =
      [g].filterMap Group.fixture? ++ groups.filterMap Group.fixture? := by
    rw [← List.filterMap_append, List.singleton_append]
  simp only [adding, hor, hfixtures, List.append_assoc, List.contains_cons, List.contains_nil,
    Bool.or_false, Bool.or_assoc]

theorem empty_admits (g : Group) : empty.Admits g := by
  cases g with
  | option o spelling value => cases o <;> first | rfl | trivial
  | flag f => cases f <;> first | rfl | trivial

/-- Adding a group leaves room for all others but its rivals. -/
theorem Admits.adding {a : Arguments} {g h : Group} (ha : a.Admits h) (hr : ¬ g.Rivals h) :
    (a.adding [g]).Admits h := by
  cases h with
  | option o spelling value =>
    cases o with
    | fixture => trivial
    | configFile =>
      have hg : g.path? = none := Option.eq_none_iff_forall_ne_some.2 fun _ hg =>
        hr ((Group.hasOption_of_path? hg).rivals (by decide) ⟨spelling, value, rfl⟩)
      simpa [Admits, Arguments.adding, hg] using ha
    | format =>
      have hg : g.format? = none := Option.eq_none_iff_forall_ne_some.2 fun _ hg =>
        hr ((Group.hasOption_of_format? hg).rivals (by decide) ⟨spelling, value, rfl⟩)
      simpa [Admits, Arguments.adding, hg] using ha
  | flag f =>
    have hne : (.flag f : Group) ≠ g := by
      rintro rfl
      exact hr rfl
    cases f with
    | help | version => trivial
    | strict | list | debug => simpa [Admits, Arguments.adding, hne] using ha

/-! ## What a group does -/

theorem setOption_of_admits {a : Arguments} {o : Opt} {value : String} (hvalue : o.Accepts value)
    {spelling : Spelling} (ha : a.Admits (.option o spelling value)) :
    a.setOption o value = .ok (a.adding [.option o spelling value]) := by
  cases o with
  | configFile =>
    have hnone : a.configFile? = none := ha
    have hne : value ≠ "" := hvalue
    simp [setOption, Arguments.adding, Group.path?, Group.fixture?, Group.format?, hnone, hne]
  | fixture => simp [setOption, Arguments.adding, Group.path?, Group.fixture?, Group.format?]
  | format =>
    have hnone : a.format? = none := ha
    rcases hvalue with rfl | rfl <;>
      simp [setOption, Arguments.adding, Group.path?, Group.fixture?, Group.format?, hnone,
        ReportFormat.ofLabel?_eq]

theorem setFlag_of_admits {a : Arguments} {f : Flag} (hvalid : (Group.flag f).IsValid)
    (ha : a.Admits (.flag f)) : a.setFlag f = .ok (a.adding [.flag f]) := by
  cases f with
  | strict | list | debug =>
    simp only [Admits] at ha
    simp [setFlag, Arguments.adding, Group.path?, Group.fixture?, Group.format?, ha]
  | help => exact absurd rfl hvalid.1
  | version => exact absurd rfl hvalid.2

end Arguments

/-! ## Reading groups -/

theorem Opt.equals_notMem_name (o : Opt) : '=' ∉ o.name.toList := by cases o <;> decide

theorem Flag.equals_notMem_name (f : Flag) : '=' ∉ f.name.toList := by cases f <;> decide

namespace State

variable {s : State} {a : Arguments}

theorem forall_ne_equals {cs : List Char} (h : '=' ∉ cs) : ∀ c ∈ cs, decide (c ≠ '=') = true :=
  fun _ hc => decide_eq_true fun e => h (e ▸ hc)

theorem take_long {name : String} (hname : '=' ∉ name.toList) :
    s.take ("--" ++ name) = s.takeLong name none := by
  have hall := forall_ne_equals hname
  unfold take
  rw [String.toList_append]
  show s.takeLong (String.ofList (name.toList.takeWhile (· ≠ '='))) (valuePart? name.toList) = _
  rw [List.takeWhile_eq_self_iff.2 hall, String.ofList_toList, valuePart?,
    List.dropWhile_eq_nil_iff.2 hall]

theorem take_longEquals {name : String} (hname : '=' ∉ name.toList) (value : String) :
    s.take ("--" ++ name ++ "=" ++ value) = s.takeLong name (some value) := by
  have hall := forall_ne_equals hname
  unfold take
  rw [String.toList_append, String.toList_append, String.toList_append, List.append_assoc,
    List.append_assoc]
  show s.takeLong (String.ofList ((name.toList ++ '=' :: value.toList).takeWhile (· ≠ '=')))
    (valuePart? (name.toList ++ '=' :: value.toList)) = _
  rw [List.takeWhile_append_of_pos hall, valuePart?, List.dropWhile_append_of_pos hall]
  simp

theorem take_option (o : Opt) : s.take ("--" ++ o.name) = s.takeOption o := by
  rw [take_long o.equals_notMem_name]
  cases o <;> rfl

theorem take_optionEquals (o : Opt) (value : String) :
    s.take ("--" ++ o.name ++ "=" ++ value) = s.takeOptionValue o value := by
  rw [take_longEquals o.equals_notMem_name]
  cases o <;> rfl

theorem take_flag (f : Flag) : s.take ("--" ++ f.name) = s.takeFlag f := by
  rw [take_long f.equals_notMem_name]
  cases f <;> rfl

theorem take_letter : s.take "-f" = s.takeOption .fixture := rfl

theorem take_letterEquals (value : String) :
    s.take ("-f=" ++ value) = s.takeOptionValue .fixture value := by
  unfold take
  rw [String.toList_append]
  show s.takeOptionValue .fixture (String.ofList value.toList) = _
  rw [String.ofList_toList]

theorem take_letterAttached {value : String} (hne : value ≠ "")
    (hvalue : value.toList.head? ≠ some '=') :
    s.take ("-f" ++ value) = s.takeOptionValue .fixture value := by
  unfold take
  rw [String.toList_append]
  show s.takeShort 'f' value.toList = _
  unfold takeShort
  rw [if_neg (by decide), if_neg (by decide), if_pos rfl]
  split
  next h => exact absurd (String.toList_eq_nil_iff.1 h) hne
  next h => simp [h] at hvalue
  next => rw [String.ofList_toList]

theorem take_plain {value : String} (hvalue : value.toList.head? ≠ some '-') :
    s.take value = s.takePlain value := by
  unfold take
  split
  next h => simp [h] at hvalue
  next h => simp [h] at hvalue
  next => rfl

theorem takeOption_of_settle (hs : s.settle = .ok a) (o : Opt) :
    s.takeOption o = .ok ⟨a, some (o, none)⟩ := by
  rw [takeOption, hs]
  rfl

theorem takeOptionValue_of_settle (hs : s.settle = .ok a) {o : Opt} {value : String}
    {b : Arguments} (hb : a.setOption o value = .ok b) :
    s.takeOptionValue o value = .ok ⟨b, none⟩ := by
  rw [takeOptionValue, hs]
  show a.setOption o value >>= _ = _
  rw [hb]
  rfl

theorem takeFlag_of_settle (hs : s.settle = .ok a) {f : Flag} {b : Arguments}
    (hb : a.setFlag f = .ok b) : s.takeFlag f = .ok ⟨b, none⟩ := by
  rw [takeFlag, hs]
  show a.setFlag f >>= _ = _
  rw [hb]
  rfl

end State

theorem parseFrom_cons {argument : String} (hne : argument ≠ "--") {s t : State}
    (ht : s.take argument = .ok t) (rest : List String) :
    parseFrom (argument :: rest) s = parseFrom rest t := by
  rw [parseFrom, if_neg hne, ht]
  rfl

/-- An argument that leaves nothing pending. -/
theorem parseFrom_settled {s : State} {b : Arguments} {argument : String}
    (hne : argument.toList ≠ ['-', '-']) (ht : s.take argument = .ok ⟨b, none⟩)
    (rest : List String) :
    ∃ t : State, t.settle = .ok b ∧ parseFrom ([argument] ++ rest) s = parseFrom rest t :=
  ⟨⟨b, none⟩, rfl, parseFrom_cons (fun e => hne (congrArg String.toList e)) ht rest⟩

/-- An option that stays pending with the value in the argument after it. -/
theorem parseFrom_pending {s : State} {a b : Arguments} {argument value : String} {o : Opt}
    (hne : argument.toList ≠ ['-', '-']) (ht : s.take argument = .ok ⟨a, some (o, none)⟩)
    (hvalue : value.toList.head? ≠ some '-') (hb : a.setOption o value = .ok b)
    (rest : List String) :
    ∃ t : State, t.settle = .ok b ∧ parseFrom ([argument, value] ++ rest) s = parseFrom rest t := by
  refine ⟨⟨a, some (o, some value)⟩, hb, ?_⟩
  have hvalueNe : value ≠ "--" := by
    rintro rfl
    exact hvalue rfl
  exact (parseFrom_cons (fun e => hne (congrArg String.toList e)) ht _).trans
    (parseFrom_cons hvalueNe (State.take_plain hvalue) rest)

/-- **What a group does.** The rest is read in a state that settles to the arguments with the group
added. -/
theorem parseFrom_words {g : Group} (hg : g.IsValid) {s : State} {a : Arguments}
    (hs : s.settle = .ok a) (ha : a.Admits g) (rest : List String) :
    ∃ t : State, t.settle = .ok (a.adding [g]) ∧
      parseFrom (g.words ++ rest) s = parseFrom rest t := by
  cases g with
  | flag f =>
    refine parseFrom_settled ?_ ?_ rest
    · cases f <;> decide
    · rw [State.take_flag]
      exact State.takeFlag_of_settle hs (Arguments.setFlag_of_admits hg ha)
  | option o spelling value =>
    obtain ⟨hvalue, hsuits⟩ := hg
    have hset := Arguments.setOption_of_admits hvalue ha
    cases spelling with
    | long =>
      refine parseFrom_pending ?_ ?_ hsuits hset rest
      · cases o <;> decide
      · rw [State.take_option]
        exact State.takeOption_of_settle hs o
    | longEquals =>
      refine parseFrom_settled (by simp [String.toList_append]) ?_ rest
      rw [State.take_optionEquals]
      exact State.takeOptionValue_of_settle hs hset
    | short =>
      obtain ⟨rfl, hhead⟩ := hsuits
      refine parseFrom_pending (by decide) ?_ hhead hset rest
      rw [State.take_letter]
      exact State.takeOption_of_settle hs .fixture
    | shortEquals =>
      obtain rfl := hsuits
      refine parseFrom_settled (by simp [String.toList_append]) ?_ rest
      rw [State.take_letterEquals]
      exact State.takeOptionValue_of_settle hs hset
    | shortAttached =>
      obtain ⟨rfl, hne, hhead⟩ := hsuits
      refine parseFrom_settled (by simp [String.toList_append]) ?_ rest
      rw [State.take_letterAttached hne hhead]
      exact State.takeOptionValue_of_settle hs hset

/-- Groups without rivals are added one by one, from any state that settles to arguments which admit
them all. -/
theorem parseFrom_groups {groups : List Group} (hvalid : ∀ g ∈ groups, g.IsValid)
    (hrivals : Group.NoRivals groups) :
    ∀ {s : State} {a : Arguments}, s.settle = .ok a → (∀ g ∈ groups, a.Admits g) →
      parseFrom (groups.flatMap Group.words) s = .ok (a.adding groups) := by
  induction groups with
  | nil =>
    intro s a hs _
    rw [a.adding_nil]
    exact hs
  | cons g groups ih =>
    intro s a hs ha
    -- What carries the induction is what the state settles to; an option may be pending in it.
    obtain ⟨hg, hrivals⟩ := List.pairwise_cons.1 hrivals
    obtain ⟨hvalidg, hvalid⟩ := List.forall_mem_cons.1 hvalid
    obtain ⟨hag, ha⟩ := List.forall_mem_cons.1 ha
    obtain ⟨t, ht, hparse⟩ := parseFrom_words hvalidg hs hag (groups.flatMap Group.words)
    rw [List.flatMap_cons, hparse, a.adding_cons]
    exact ih hvalid hrivals ht fun h hh => (ha h hh).adding (hg h hh)

/-- **Groups without rivals are accepted.** -/
theorem parse_groups {groups : List Group} (hvalid : ∀ g ∈ groups, g.IsValid)
    (hrivals : Group.NoRivals groups) :
    parse (groups.flatMap Group.words) = .ok (Arguments.empty.adding groups) :=
  parseFrom_groups hvalid hrivals rfl fun g _ => Arguments.empty_admits g

/-! ## The order of groups -/

/-- Of an option with rivals there is one group at most, so the same one is found in any order. -/
theorem findSome?_eq_of_perm {α : Type} {f : Group → Option α} {o : Opt} (ho : o ≠ .fixture)
    (hf : ∀ {g : Group} {x : α}, f g = some x → g.HasOption o) {groups groups' : List Group}
    (hperm : groups.Perm groups') (hrivals : Group.NoRivals groups) :
    groups.findSome? f = groups'.findSome? f := by
  induction hperm with
  | nil => rfl
  | cons g _ ih =>
    rw [List.findSome?_cons, List.findSome?_cons, ih (List.pairwise_cons.1 hrivals).2]
  | swap g h groups =>
    have hgh : ¬ h.Rivals g := (List.pairwise_cons.1 hrivals).1 g List.mem_cons_self
    simp only [List.findSome?_cons]
    cases hg : f g with
    | none => rfl
    | some x =>
      cases hh : f h with
      | none => rfl
      | some y => exact absurd ((hf hh).rivals ho (hf hg)) hgh
  | trans hperm _ ih ih' =>
    exact (ih hrivals).trans (ih' (hrivals.perm hperm))

theorem Arguments.adding_eq_of_perm (a : Arguments) {groups groups' : List Group}
    (hrivals : Group.NoRivals groups) (hperm : groups.Perm groups')
    (hfixtures : groups.filterMap Group.fixture? = groups'.filterMap Group.fixture?) :
    a.adding groups = a.adding groups' := by
  have hcontains (g : Group) : groups.contains g = groups'.contains g := hperm.contains_eq
  have hpath : groups.findSome? Group.path? = groups'.findSome? Group.path? :=
    findSome?_eq_of_perm (by decide) Group.hasOption_of_path? hperm hrivals
  have hformat : groups.findSome? Group.format? = groups'.findSome? Group.format? :=
    findSome?_eq_of_perm (by decide) Group.hasOption_of_format? hperm hrivals
  simp only [adding, hcontains, hpath, hformat, hfixtures]

/-- **Only the fixture options have an order.** -/
theorem parse_perm {groups groups' : List Group} (hvalid : ∀ g ∈ groups, g.IsValid)
    (hrivals : Group.NoRivals groups) (hperm : groups.Perm groups')
    (hfixtures : groups.filterMap Group.fixture? = groups'.filterMap Group.fixture?) :
    parse (groups'.flatMap Group.words) = parse (groups.flatMap Group.words) := by
  rw [parse_groups hvalid hrivals, Arguments.adding_eq_of_perm _ hrivals hperm hfixtures]
  exact parse_groups (fun g hg => hvalid g (hperm.mem_iff.2 hg)) (hrivals.perm hperm)

end CommandLine

end RecordWalk
