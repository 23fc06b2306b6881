import KindScript.CommandLine

/-!
# Well-formed command lines

A well-formed command line is a run of items in any order, each of one word or of two, and
after a double dash nothing but files. No switch and no settings file is given twice. Exactly
the words of these lines ask for a run, and the run has the options that the items give.
-/

namespace KindScript.CommandLine

/-- What can be switched on. -/
inductive Switch where
  | debug
  | tokens
  | trees
  | values
deriving DecidableEq

namespace Switch

def flag : Switch → Flag
  | debug => .debug
  | tokens => .showTokens
  | trees => .showTrees
  | values => .showValues

/-- The options have the switch on. -/
def given (o : Options) : Switch → Bool
  | debug => o.debug
  | tokens => o.showTokens
  | trees => o.showTrees
  | values => o.showValues

end Switch

/-- One part of a command line before a double dash. -/
inductive Item where
  | long (s : Switch)
  | short
  | config (path : String)
  | joined (path : String)
  | file (path : String)

namespace Item

/-- The words of the item. -/
def words : Item → List String
  | long s => [s.flag.name]
  | short => ["-d"]
  | config path => ["--config", path]
  | joined path => ["--config=" ++ path]
  | file path => [path]

def switch? : Item → Option Switch
  | long s => some s
  | short => some .debug
  | _ => none

def config? : Item → Option String
  | config path => some path
  | joined path => some path
  | _ => none

def file? : Item → Option String
  | file path => some path
  | _ => none

end Item

/-- The word can be a path where options are read: it is not empty, and it begins with no
dash unless it is one. -/
structure Bare (word : String) : Prop where
  filled : word ≠ ""
  dash : ∀ c cs, word.toList ≠ '-' :: c :: cs

/-- The paths of the item can be told from options. -/
def Item.Fits : Item → Prop
  | long _ => True
  | short => True
  | config path => Bare path
  | joined path => path ≠ ""
  | file path => Bare path

/-- A well-formed command line. -/
structure Line where
  items : List Item
  /-- The files after a double dash, where there is one. -/
  rest : Option (List String)
  fits : ∀ i ∈ items, i.Fits
  once : (items.filterMap Item.switch?).Nodup
  single : (items.filterMap Item.config?).length ≤ 1
  named : ∀ path ∈ rest.getD [], path ≠ ""

namespace Line

def words (line : Line) : List String :=
  line.items.flatMap Item.words ++ line.rest.elim [] ("--" :: ·)

/-- The switch is given on the line. -/
def gives (line : Line) (s : Switch) : Bool :=
  (line.items.filterMap Item.switch?).contains s

/-- The settings file that the line names. -/
def config (line : Line) : Option String :=
  (line.items.filterMap Item.config?).head?

def files (line : Line) : List String :=
  line.items.filterMap Item.file? ++ line.rest.getD []

def options (line : Line) : Options where
  files := line.files
  debug := line.gives .debug
  showTokens := line.gives .tokens
  showTrees := line.gives .trees
  showValues := line.gives .values
  config := line.config

end Line

/-! ## One item -/

/-- The options with what the item gives. -/
def Options.plus (o : Options) : Item → Options
  | .long .debug => { o with debug := true }
  | .long .tokens => { o with showTokens := true }
  | .long .trees => { o with showTrees := true }
  | .long .values => { o with showValues := true }
  | .short => { o with debug := true }
  | .config path => { o with config := some path }
  | .joined path => { o with config := some path }
  | .file path => { o with files := o.files ++ [path] }

/-- The options do not yet have what the item gives, unless it is a file. -/
def Options.Lacks (o : Options) (i : Item) : Prop :=
  (∀ s, i.switch? = some s → s.given o = false) ∧ ∀ path, i.config? = some path → o.config = none

variable {o o' : Options} {i : Item} {items : List Item} {words : List String} {path : String}

theorem addFile_of_filled (filled : path ≠ "") :
    o.addFile path = .ok { o with files := o.files ++ [path] } := by
  rw [Options.addFile, if_neg fun empty => filled (String.isEmpty_iff.mp empty)]

theorem setConfig_of_filled (filled : path ≠ "") (none : o.config = none) :
    o.setConfig path = .ok { o with config := some path } := by
  rw [Options.setConfig, if_neg fun empty => filled (String.isEmpty_iff.mp empty), none]
  rfl

theorem isValue_iff : isValue path = true ↔ ∀ c cs, path.toList ≠ '-' :: c :: cs := by
  have dash : path = "-" ↔ path.toList = ['-'] := String.toList_inj.symm
  rw [isValue, Bool.or_eq_true, Bool.not_eq_true', String.startsWith_string_eq_false_iff,
    decide_eq_true_eq, dash]
  cases path.toList with
  | nil => simp
  | cons c cs =>
    by_cases same : c = '-'
    · cases cs <;> simp [same]
    · simp [List.cons_prefix_cons, same, Ne.symm same]

theorem setFlag_of_lacks (s : Switch) (off : s.given o = false) :
    o.setFlag s.flag = .ok (o.plus (.long s)) := by
  cases s <;> simp only [Switch.given] at off <;>
    simp only [Switch.flag, Options.setFlag, switch, off] <;> rfl

theorem read_long_eq (o : Options) (s : Switch) (more : List String) :
    read o (s.flag.name :: more) =
      match o.setFlag s.flag with
      | .error e => .error e
      | .ok o => read o more := by
  cases s <;> rw [read.eq_def] <;> rfl

theorem read_short_eq (o : Options) (more : List String) :
    read o ("-d" :: more) =
      match o.setLetters ['d'] with
      | .error e => .error e
      | .ok o => read o more := by
  rw [read.eq_def]
  rfl

theorem read_config_eq (o : Options) (path : String) (more : List String) :
    read o ("--config" :: path :: more) =
      if isValue path then
        match o.setConfig path with
        | .error e => .error e
        | .ok o => read o more
      else fail (.missingValue "--config <PATH>") := by
  rw [read.eq_def]
  rfl

theorem read_joined_eq (o : Options) (path : String) (more : List String) :
    read o (("--config=" ++ path) :: more) =
      match o.setConfig (String.ofList path.toList) with
      | .error e => .error e
      | .ok o => read o more := by
  have chars : ("--config=" ++ path).toList =
      '-' :: '-' :: 'c' :: 'o' :: 'n' :: 'f' :: 'i' :: 'g' :: '=' :: path.toList :=
    String.toList_append
  rw [read.eq_def]
  simp only [chars]
  rfl

theorem read_long {s : Switch} (set : o.setFlag s.flag = .ok o') (more : List String) :
    read o (s.flag.name :: more) = read o' more := by
  rw [read_long_eq, set]

theorem read_short (set : o.setFlag .debug = .ok o') (more : List String) :
    read o ("-d" :: more) = read o' more := by
  have letters : o.setLetters ['d'] = .ok o' := by
    simp only [Options.setLetters, Flag.ofLetter?, set]
  rw [read_short_eq, letters]

theorem read_config (value : isValue path = true) (set : o.setConfig path = .ok o')
    (more : List String) : read o ("--config" :: path :: more) = read o' more := by
  rw [read_config_eq, if_pos value, set]

theorem read_joined (set : o.setConfig path = .ok o') (more : List String) :
    read o (("--config=" ++ path) :: more) = read o' more := by
  rw [read_joined_eq, String.ofList_toList, set]

theorem read_file (dash : ∀ c cs, path.toList ≠ '-' :: c :: cs)
    (added : o.addFile path = .ok o') (more : List String) :
    read o (path :: more) = read o' more := by
  rw [read.eq_def]
  simp only [added]
  split
  · exact absurd ‹_› (dash _ _)
  · exact absurd ‹_› (dash _ _)
  · exact absurd ‹_› (dash _ _)
  · rfl

/-- The words of an item are read as what it gives. -/
theorem read_item (fits : i.Fits) (lacks : o.Lacks i) (more : List String) :
    read o (i.words ++ more) = read (o.plus i) more := by
  cases i with
  | long s => exact read_long (setFlag_of_lacks s (lacks.1 s rfl)) more
  | short => exact read_short (setFlag_of_lacks .debug (lacks.1 .debug rfl)) more
  | config path =>
    exact read_config (isValue_iff.mpr fits.dash)
      (setConfig_of_filled fits.filled (lacks.2 path rfl)) more
  | joined path => exact read_joined (setConfig_of_filled fits (lacks.2 path rfl)) more
  | file path => exact read_file fits.dash (addFile_of_filled fits.filled) more

/-! ## A run of items -/

/-- The options with what the items give. -/
def Options.extended (o : Options) (items : List Item) : Options where
  files := o.files ++ items.filterMap Item.file?
  debug := o.debug || (items.filterMap Item.switch?).contains .debug
  showTokens := o.showTokens || (items.filterMap Item.switch?).contains .tokens
  showTrees := o.showTrees || (items.filterMap Item.switch?).contains .trees
  showValues := o.showValues || (items.filterMap Item.switch?).contains .values
  config := o.config.or (items.filterMap Item.config?).head?

/-- No switch of the items is on in the options or given twice, and the same with the settings
file. -/
structure Fresh (o : Options) (items : List Item) : Prop where
  off : ∀ s ∈ items.filterMap Item.switch?, s.given o = false
  once : (items.filterMap Item.switch?).Nodup
  unnamed : o.config = none ∨ items.filterMap Item.config? = []
  single : (items.filterMap Item.config?).length ≤ 1

theorem given_plus (o : Options) (i : Item) (s : Switch) :
    s.given (o.plus i) = (s.given o || i.switch? == some s) := by
  cases i with
  | long s' => cases s' <;> cases s <;> simp [Options.plus, Switch.given, Item.switch?]
  | short => cases s <;> simp [Options.plus, Switch.given, Item.switch?]
  | config | joined | file => cases s <;> simp [Options.plus, Switch.given, Item.switch?]

theorem config_plus (o : Options) (i : Item) : (o.plus i).config = i.config?.or o.config := by
  cases i with
  | long s => cases s <;> rfl
  | short | config | joined | file => rfl

theorem fresh_iff : Fresh o items ↔
    ((∀ s ∈ items.filterMap Item.switch?, s.given o = false) ∧
        (items.filterMap Item.switch?).Nodup) ∧
      (o.config = none ∨ items.filterMap Item.config? = []) ∧
        (items.filterMap Item.config?).length ≤ 1 :=
  ⟨fun ⟨off, once, unnamed, single⟩ => ⟨⟨off, once⟩, unnamed, single⟩,
    fun ⟨⟨off, once⟩, unnamed, single⟩ => ⟨off, once, unnamed, single⟩⟩

theorem filterMap_cons_toList {α β : Type} (f : α → Option β) (a : α) (more : List α) :
    (a :: more).filterMap f = (f a).toList ++ more.filterMap f := by
  rw [List.filterMap_cons]
  cases f a <;> rfl

theorem off_once_iff (on : Switch → Bool) (first : Option Switch) (later : List Switch) :
    ((∀ s ∈ first.toList ++ later, on s = false) ∧ (first.toList ++ later).Nodup) ↔
      (∀ s, first = some s → on s = false) ∧
        (∀ s ∈ later, (on s || first == some s) = false) ∧ later.Nodup := by
  cases first with
  | none => simp
  | some s =>
    simp only [Option.toList_some, List.singleton_append, List.forall_mem_cons,
      List.nodup_cons, Bool.or_eq_false_iff, beq_eq_false_iff_ne, Option.some.injEq, forall_eq']
    grind

theorem unnamed_single_iff (named first : Option String) (later : List String) :
    ((named = none ∨ first.toList ++ later = []) ∧ (first.toList ++ later).length ≤ 1) ↔
      (∀ path, first = some path → named = none) ∧
        (first.or named = none ∨ later = []) ∧ later.length ≤ 1 := by
  cases first with
  | none => simp
  | some path => cases later <;> simp

theorem fresh_cons_iff : Fresh o (i :: items) ↔ o.Lacks i ∧ Fresh (o.plus i) items := by
  rw [fresh_iff, fresh_iff, filterMap_cons_toList, filterMap_cons_toList, off_once_iff,
    unnamed_single_iff, config_plus]
  simp only [given_plus]
  constructor
  · rintro ⟨⟨off, once⟩, unnamed, single⟩
    exact ⟨⟨off, unnamed⟩, once, single⟩
  · rintro ⟨⟨off, unnamed⟩, once, single⟩
    exact ⟨⟨off, once⟩, unnamed, single⟩

theorem extended_nil (o : Options) : o.extended [] = o := by
  simp [Options.extended]

theorem extended_plus (lacks : o.Lacks i) (items : List Item) :
    (o.plus i).extended items = o.extended (i :: items) := by
  unfold Options.extended
  simp only [filterMap_cons_toList]
  cases i with
  | long s => cases s <;> simp [Options.plus, Item.switch?, Item.config?, Item.file?]
  | short => simp [Options.plus, Item.switch?, Item.config?, Item.file?]
  | config path | joined path =>
    have none := lacks.2 path rfl
    simp [Options.plus, Item.switch?, Item.config?, Item.file?, none]
  | file path => simp [Options.plus, Item.switch?, Item.config?, Item.file?]

/-- The words of items are read as what they give. -/
theorem read_items (fits : ∀ i ∈ items, i.Fits) (fresh : Fresh o items) (more : List String) :
    read o (items.flatMap Item.words ++ more) = read (o.extended items) more := by
  induction items generalizing o with
  | nil => rw [extended_nil, List.flatMap_nil, List.nil_append]
  | cons i items ih =>
    obtain ⟨first, fits⟩ := List.forall_mem_cons.mp fits
    obtain ⟨lacks, fresh⟩ := fresh_cons_iff.mp fresh
    rw [List.flatMap_cons, List.append_assoc, read_item first lacks, ih fits fresh,
      extended_plus lacks]

theorem readFiles_eq_ok_iff {paths : List String} : readFiles o paths = .ok o' ↔
    (∀ path ∈ paths, path ≠ "") ∧ o' = { o with files := o.files ++ paths } := by
  induction paths generalizing o with
  | nil => simp [readFiles, eq_comm]
  | cons path more ih =>
    rw [readFiles]
    by_cases filled : path = ""
    · simp [filled, Options.addFile, fail]
    · rw [addFile_of_filled filled]
      simp only [ih, List.append_assoc, List.singleton_append, List.forall_mem_cons]
      simp [filled]

/-! ## From words to items -/

theorem filled_of_addFile (added : o.addFile path = .ok o') :
    path ≠ "" ∧ o' = o.plus (.file path) := by
  unfold Options.addFile at added
  split at added
  · cases added
  · rename_i filled
    cases added
    exact ⟨fun empty => filled (String.isEmpty_iff.mpr empty), rfl⟩

theorem lacks_of_setConfig (set : o.setConfig path = .ok o') :
    path ≠ "" ∧ o.config = none ∧ o' = { o with config := some path } := by
  unfold Options.setConfig at set
  split at set
  · cases set
  rename_i filled
  split at set
  · cases set
  rename_i unnamed
  cases set
  exact ⟨fun empty => filled (String.isEmpty_iff.mpr empty),
    Option.not_isSome_iff_eq_none.mp unnamed, rfl⟩

theorem off_of_switch {flag : Flag} {old new : Bool} (set : switch flag old = .ok new) :
    old = false ∧ new = true := by
  unfold switch at set
  split at set
  · cases set
  · rename_i off
    cases set
    exact ⟨Bool.eq_false_iff.mpr off, rfl⟩

theorem off_of_setFlag {flag : Flag} (set : o.setFlag flag = .ok o') :
    ∃ s : Switch, s.flag = flag ∧ s.given o = false ∧ o' = o.plus (.long s) := by
  have inner {old : Bool} {f : Bool → Options} (set : (switch flag old).map f = .ok o') :
      old = false ∧ o' = f true := by
    cases done : switch flag old with
    | error e =>
      rw [done] at set
      cases set
    | ok new =>
      obtain ⟨off, rfl⟩ := off_of_switch done
      rw [done] at set
      cases set
      exact ⟨off, rfl⟩
  cases flag with
  | debug => exact ⟨.debug, rfl, inner set⟩
  | showTokens => exact ⟨.tokens, rfl, inner set⟩
  | showTrees => exact ⟨.trees, rfl, inner set⟩
  | showValues => exact ⟨.values, rfl, inner set⟩
  | help => cases set
  | version => cases set

/-- Letters that set options and do not answer at once are the one for debugging. -/
theorem off_of_setLetters {letter : Char} {letters : List Char}
    (set : o.setLetters (letter :: letters) = .ok o') :
    letter = 'd' ∧ letters = [] ∧ o.debug = false ∧ o' = o.plus .short := by
  have one {o o' : Options} {letter : Char} {letters : List Char}
      (set : o.setLetters (letter :: letters) = .ok o') :
      letter = 'd' ∧ o.debug = false ∧ (o.plus .short).setLetters letters = .ok o' := by
    rw [Options.setLetters] at set
    unfold Flag.ofLetter? at set
    split at set
    · cases set
    rename_i flag named
    split at set
    · cases set
    rename_i next done
    obtain ⟨s, rfl, off, rfl⟩ := off_of_setFlag done
    split at named <;> cases s <;> cases named
    exact ⟨rfl, off, set⟩
  obtain ⟨rfl, off, more⟩ := one set
  cases letters with
  | nil =>
    cases more
    exact ⟨rfl, rfl, off, rfl⟩
  | cons letter letters =>
    -- The first letter has switched debugging on.
    have again := (one more).2.1
    cases again

theorem splitValue_eq_none {long : List Char} {name : String}
    (split : splitValue long = (name, none)) : long = name.toList := by
  unfold splitValue at split
  split at split
  · rename_i after
    cases split
    have whole : long.takeWhile (· ≠ '=') ++ long.dropWhile (· ≠ '=') = long :=
      List.takeWhile_append_dropWhile
    rw [after, List.append_nil] at whole
    rw [String.toList_ofList]
    exact whole.symm
  · cases split

theorem splitValue_eq_some {long : List Char} {name value : String}
    (split : splitValue long = (name, some value)) :
    long = name.toList ++ '=' :: value.toList := by
  unfold splitValue at split
  split at split
  · cases split
  · rename_i mark rest after
    cases split
    have whole : long.takeWhile (· ≠ '=') ++ long.dropWhile (· ≠ '=') = long :=
      List.takeWhile_append_dropWhile
    have stop := List.head?_dropWhile_not (fun c => decide (c ≠ '=')) long
    rw [after] at whole stop
    have equals : mark = '=' := by simpa using stop
    rw [String.toList_ofList, String.toList_ofList]
    exact equals ▸ whole.symm

theorem name_of_ofName? {name : String} {flag : Flag} (named : Flag.ofName? name = some flag) :
    flag.name = "--" ++ name := by
  unfold Flag.ofName? at named
  split at named <;> cases named <;> rfl

/-- The words spell items that can be given after the options, and files after a double
dash. -/
structure Spelled (o : Options) (words : List String) (items : List Item)
    (rest : Option (List String)) : Prop where
  words : words = items.flatMap Item.words ++ rest.elim [] ("--" :: ·)
  fits : ∀ i ∈ items, i.Fits
  fresh : Fresh o items
  named : ∀ path ∈ rest.getD [], path ≠ ""

/-- The options with what items give and with further files. -/
def Options.completed (o : Options) (items : List Item) (rest : Option (List String)) : Options :=
  { o.extended items with files := (o.extended items).files ++ rest.getD [] }

theorem fresh_nil (o : Options) : Fresh o [] :=
  ⟨nofun, .nil, .inr rfl, Nat.zero_le _⟩

theorem Spelled.cons {rest : Option (List String)} (fits : i.Fits) (lacks : o.Lacks i)
    (more : Spelled (o.plus i) words items rest) :
    Spelled o (i.words ++ words) (i :: items) rest := by
  obtain ⟨rfl, fits', fresh, named⟩ := more
  refine ⟨?_, List.forall_mem_cons.mpr ⟨fits, fits'⟩, fresh_cons_iff.mpr ⟨lacks, fresh⟩, named⟩
  rw [List.flatMap_cons, List.append_assoc]

theorem read_of_spelled {rest : Option (List String)} (spelled : Spelled o words items rest) :
    read o words = .ok (o.completed items rest) := by
  obtain ⟨rfl, fits, fresh, named⟩ := spelled
  rw [read_items fits fresh]
  cases rest with
  | none =>
    rw [Options.completed, Option.getD_none, List.append_nil]
    rfl
  | some paths =>
    have last : read (o.extended items) ("--" :: paths) = readFiles (o.extended items) paths := by
      rw [read.eq_def]
      rfl
    exact last.trans (readFiles_eq_ok_iff.mpr ⟨named, rfl⟩)

/-- An item goes in front of those that the rest of the words spell. -/
theorem exists_spelled_cons {i : Item} {words : List String} (fits : i.Fits) (lacks : o.Lacks i)
    (later : ∃ items rest, Spelled (o.plus i) words items rest ∧
      o' = (o.plus i).completed items rest) :
    ∃ items rest, Spelled o (i.words ++ words) items rest ∧ o' = o.completed items rest := by
  obtain ⟨items, rest, spelled, rfl⟩ := later
  refine ⟨i :: items, rest, spelled.cons fits lacks, ?_⟩
  rw [Options.completed, Options.completed, extended_plus lacks]

theorem Options.Lacks.of_switch {s : Switch} (is : i.switch? = some s) (off : s.given o = false) :
    o.Lacks i := by
  refine ⟨fun t same => ?_, fun path named => ?_⟩
  · rw [is] at same
    exact Option.some.inj same ▸ off
  · cases i <;> cases is <;> cases named

theorem Options.Lacks.of_config (is : i.switch? = none) (unnamed : o.config = none) :
    o.Lacks i := by
  refine ⟨fun t same => ?_, fun _ _ => unnamed⟩
  rw [is] at same
  cases same

/-- Words that are read to the end spell items. -/
theorem spelled_of_read (done : read o words = .ok o') :
    ∃ items rest, Spelled o words items rest ∧ o' = o.completed items rest := by
  fun_induction read o words with
  | case1 o =>
    cases done
    refine ⟨[], none, ⟨rfl, nofun, fresh_nil _, nofun⟩, ?_⟩
    rw [Options.completed, extended_nil, Option.getD_none, List.append_nil]
  | case2 o word more chars =>
    obtain ⟨named, rfl⟩ := readFiles_eq_ok_iff.mp done
    have word_eq : word = "--" := String.toList_inj.mp chars
    refine ⟨[], some more, ⟨by rw [word_eq]; rfl, nofun, fresh_nil o, named⟩, ?_⟩
    rw [Options.completed, extended_nil, Option.getD_some]
  | case4 o word more long _ chars value split next set ih =>
    obtain ⟨filled, unnamed, rfl⟩ := lacks_of_setConfig set
    have word_eq : word = "--config=" ++ value := by
      rw [← String.toList_inj, chars, splitValue_eq_some split, String.toList_append]
      rfl
    rw [word_eq]
    exact exists_spelled_cons (i := .joined value) filled (.of_config rfl unnamed) (ih done)
  | case7 o word long _ chars split value more isPath next set ih =>
    obtain ⟨filled, unnamed, rfl⟩ := lacks_of_setConfig set
    have word_eq : word = "--config" := by
      rw [← String.toList_inj, chars, splitValue_eq_none split]
      rfl
    rw [word_eq]
    exact exists_spelled_cons (i := .config value) ⟨filled, isValue_iff.mp isPath⟩
      (.of_config rfl unnamed) (ih done)
  | case12 o word more long _ chars name value _ _ split flag named alone next set ih =>
    obtain ⟨s, rfl, off, rfl⟩ := off_of_setFlag set
    obtain rfl : value = none := Option.not_isSome_iff_eq_none.mp alone
    have word_eq : word = s.flag.name := by
      rw [← String.toList_inj, chars, splitValue_eq_none split, name_of_ofName? named,
        String.toList_append]
      rfl
    rw [word_eq]
    exact exists_spelled_cons (i := .long s) trivial (.of_switch rfl off) (ih done)
  | case14 o word more letter letters _ _ chars next set ih =>
    obtain ⟨rfl, rfl, off, rfl⟩ := off_of_setLetters set
    have word_eq : word = "-d" := String.toList_inj.mp chars
    rw [word_eq]
    exact exists_spelled_cons (i := .short) trivial (.of_switch rfl off) (ih done)
  | case16 o word more next added _ _ dash ih =>
    obtain ⟨filled, rfl⟩ := filled_of_addFile added
    exact exists_spelled_cons (i := .file word) ⟨filled, dash⟩ ⟨nofun, nofun⟩ (ih done)
  | case3 | case5 | case6 | case8 | case9 | case10 | case11 | case13 | case15 => cases done

/-! ## Lines -/

theorem setFlag_ne_run (o : Options) (flag : Flag) (asked : Options) :
    o.setFlag flag ≠ .error (.ok (.run asked)) := by
  have once (flag : Flag) (old : Bool) (f : Bool → Options) :
      (switch flag old).map f ≠ .error (.ok (.run asked)) := by
    unfold switch
    split <;> nofun
  cases flag with
  | help | version => nofun
  | debug | showTokens | showTrees | showValues => exact once _ _ _

theorem setLetters_ne_run (o : Options) (letters : List Char) (asked : Options) :
    o.setLetters letters ≠ .error (.ok (.run asked)) := by
  induction letters generalizing o with
  | nil => nofun
  | cons letter more ih =>
    rw [Options.setLetters]
    split
    · nofun
    · split
      · rename_i e failed
        exact fun same => setFlag_ne_run o _ asked (failed.trans same)
      · exact ih _

theorem setConfig_ne_run (o : Options) (path : String) (asked : Options) :
    o.setConfig path ≠ .error (.ok (.run asked)) := by
  unfold Options.setConfig
  split
  · nofun
  · split <;> nofun

theorem addFile_ne_run (o : Options) (path : String) (asked : Options) :
    o.addFile path ≠ .error (.ok (.run asked)) := by
  unfold Options.addFile
  split <;> nofun

theorem readFiles_ne_run (o : Options) (paths : List String) (asked : Options) :
    readFiles o paths ≠ .error (.ok (.run asked)) := by
  induction paths generalizing o with
  | nil => nofun
  | cons path more ih =>
    rw [readFiles]
    split
    · rename_i e failed
      exact fun same => addFile_ne_run o path asked (failed.trans same)
    · exact ih _

/-- Reading that stops before the end has not asked for a run. -/
theorem read_ne_run (o : Options) (words : List String) (asked : Options) :
    read o words ≠ .error (.ok (.run asked)) := by
  fun_induction read o words with
  | case1 | case5 | case8 | case9 | case10 => nofun
  | case2 => exact readFiles_ne_run _ _ asked
  | case3 _ _ _ _ _ _ _ _ e failed | case6 _ _ _ _ _ _ _ _ _ e failed =>
    exact fun same => setConfig_ne_run _ _ asked (failed.trans same)
  | case11 _ _ _ _ _ _ _ _ _ _ _ _ _ _ e failed =>
    exact fun same => setFlag_ne_run _ _ asked (failed.trans same)
  | case13 _ _ _ _ _ _ _ _ e failed =>
    exact fun same => setLetters_ne_run _ _ asked (failed.trans same)
  | case15 _ _ _ e failed => exact fun same => addFile_ne_run _ _ asked (failed.trans same)
  | case4 => assumption
  | case7 => assumption
  | case12 => assumption
  | case14 => assumption
  | case16 => assumption

theorem request_eq_run_iff : request words = .ok (.run o) ↔ read {} words = .ok o := by
  unfold request
  split
  · rename_i options done
    simp [done]
  · rename_i answer failed
    constructor
    · rintro rfl
      exact absurd failed (read_ne_run _ _ _)
    · intro done
      rw [done] at failed
      cases failed

theorem fresh_start_iff : Fresh {} items ↔
    (items.filterMap Item.switch?).Nodup ∧ (items.filterMap Item.config?).length ≤ 1 :=
  ⟨fun fresh => ⟨fresh.once, fresh.single⟩,
    fun ⟨once, single⟩ => ⟨fun s _ => by cases s <;> rfl, once, .inl rfl, single⟩⟩

theorem Line.options_eq (line : Line) :
    line.options = ({} : Options).completed line.items line.rest := by
  simp [Line.options, Line.files, Line.gives, Line.config, Options.completed, Options.extended]

/-- Exactly the words of well-formed lines ask for a run, and the run has the options of the
line. -/
theorem request_iff_line : request words = .ok (.run o) ↔
    ∃ line : Line, line.words = words ∧ line.options = o := by
  rw [request_eq_run_iff]
  constructor
  · intro done
    obtain ⟨items, rest, ⟨spells, fits, fresh, named⟩, rfl⟩ := spelled_of_read done
    obtain ⟨once, single⟩ := fresh_start_iff.mp fresh
    exact ⟨⟨items, rest, fits, once, single, named⟩, spells.symm, Line.options_eq _⟩
  · rintro ⟨line, rfl, rfl⟩
    rw [line.options_eq]
    exact read_of_spelled
      ⟨rfl, line.fits, fresh_start_iff.mpr ⟨line.once, line.single⟩, line.named⟩

end KindScript.CommandLine
