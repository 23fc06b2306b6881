import KindScript.Proofs.CommandLine.Words
import Mathlib.Data.List.TakeWhile

/-!
# Layers of settings

A switch is on by its flag on the command line, else by its variable of the environment where
that spells a truth value, else by the settings file. The file may be absent only where
neither the command line nor the environment names one.
-/

namespace KindScript

open Settings

/-! ## Truth values -/

namespace Text

variable {before word after cs : List Char}

theorem dropWhile_isWhiteSpace (blank : ∀ c ∈ before, isWhiteSpace c = true)
    (ink : ∀ c, word.head? = some c → isWhiteSpace c = false) (some : word ≠ []) :
    (before ++ (word ++ after)).dropWhile isWhiteSpace = word ++ after := by
  rw [List.dropWhile_append_of_pos blank]
  cases word with
  | nil => exact absurd rfl some
  | cons c word =>
    have first := ink c rfl
    exact List.dropWhile_cons_of_neg (by simp [first])

/-- White space at both ends goes, and no more. -/
theorem trimmed_append (blank : ∀ c ∈ before ++ after, isWhiteSpace c = true) (some : word ≠ [])
    (ink : ∀ c ∈ word, isWhiteSpace c = false) :
    trimmed (before ++ word ++ after) = word := by
  have left : ∀ c ∈ before, isWhiteSpace c = true := fun c mem =>
    blank c (List.mem_append_left _ mem)
  have right : ∀ c ∈ after.reverse, isWhiteSpace c = true := fun c mem =>
    blank c (List.mem_append_right _ (List.mem_reverse.mp mem))
  have first : ∀ c, word.head? = .some c → isWhiteSpace c = false := fun c head =>
    ink c (List.mem_of_head? head)
  have last : ∀ c, word.reverse.head? = .some c → isWhiteSpace c = false := fun c head =>
    ink c (List.mem_reverse.mp (List.mem_of_head? head))
  have back : (after.reverse ++ (word.reverse ++ [])).dropWhile isWhiteSpace = word.reverse ++ [] :=
    dropWhile_isWhiteSpace right last fun none => some (List.reverse_eq_nil_iff.mp none)
  rw [List.append_nil] at back
  rw [trimmed, List.append_assoc, dropWhile_isWhiteSpace left first some, List.reverse_append,
    back, List.reverse_reverse]

theorem exists_trimmed (cs : List Char) :
    ∃ before after, cs = before ++ trimmed cs ++ after ∧
      ∀ c ∈ before ++ after, isWhiteSpace c = true := by
  have front := (List.takeWhile_append_dropWhile (p := isWhiteSpace) (l := cs)).symm
  generalize rest_eq : cs.dropWhile isWhiteSpace = rest at front
  have back := (List.takeWhile_append_dropWhile (p := isWhiteSpace) (l := rest.reverse)).symm
  have split := congrArg List.reverse back
  rw [List.reverse_reverse, List.reverse_append] at split
  refine ⟨cs.takeWhile isWhiteSpace, (rest.reverse.takeWhile isWhiteSpace).reverse, ?_, ?_⟩
  · rw [trimmed, rest_eq, List.append_assoc, ← split]
    exact front
  · intro c mem
    rcases List.mem_append.mp mem with mem | mem
    · exact List.mem_takeWhile_imp mem
    · exact List.mem_takeWhile_imp (List.mem_reverse.mp mem)

end Text

/-- The words that stand for a truth value. -/
def truthWords : Bool → List String
  | true => ["1", "true", "yes", "on"]
  | false => ["0", "false", "no", "off"]

/-- The text is a word for the truth value in any case of its letters, between white space. -/
def SpellsTruth (text : String) (b : Bool) : Prop :=
  ∃ before word after, text.toList = before ++ word ++ after ∧
    (∀ c ∈ before ++ after, Text.isWhiteSpace c = true) ∧
      String.ofList (word.map Char.toLower) ∈ truthWords b

theorem toLower_of_isWhiteSpace {c : Char} (white : Text.isWhiteSpace c = true) :
    c.toLower = c := by
  have low (upper : 65 ≤ c.toNat ∧ c.toNat ≤ 90) : Text.isWhiteSpace c = false := by
    simp only [Text.isWhiteSpace, Text.whiteSpaceRanges, Text.Ranges.contains]
    simp
    omega
  refine dif_neg fun upper => ?_
  rw [low ⟨UInt32.le_iff_toNat_le.mp upper.1, UInt32.le_iff_toNat_le.mp upper.2⟩] at white
  cases white

theorem isWhiteSpace_of_truthWords {b : Bool} {word : List Char}
    (mem : String.ofList (word.map Char.toLower) ∈ truthWords b) :
    word ≠ [] ∧ ∀ c ∈ word, Text.isWhiteSpace c = false := by
  have ink : ∀ w ∈ truthWords b, w.toList ≠ [] ∧ w.toList.all (!Text.isWhiteSpace ·) = true := by
    cases b <;> decide
  obtain ⟨some, ink⟩ := ink _ mem
  rw [String.toList_ofList] at some ink
  refine ⟨fun none => some (by rw [none]; rfl), fun c inside => ?_⟩
  cases white : Text.isWhiteSpace c with
  | false => rfl
  | true =>
    have dark := List.all_eq_true.mp ink _ (List.mem_map_of_mem inside)
    rw [toLower_of_isWhiteSpace white, white] at dark
    cases dark

theorem flag?_eq_some_iff {text : String} {b : Bool} :
    flag? text = some b ↔ SpellsTruth text b := by
  have word_iff : flag? text = some b ↔
      String.ofList ((Text.trimmed text.toList).map Char.toLower) ∈ truthWords b := by
    unfold flag?
    generalize String.ofList _ = word
    have yes_no : word ∈ truthWords true → word ∉ truthWords false := by
      have : ∀ w ∈ truthWords true, w ∉ truthWords false := by decide
      exact this word
    simp only [List.contains_iff_mem]
    change (if word ∈ truthWords true then some true
      else if word ∈ truthWords false then some false else none) = some b ↔ _
    split
    · rename_i yes
      cases b
      · simpa using yes_no yes
      · simpa using yes
    · rename_i yes
      split
      · rename_i no
        cases b <;> simp [yes, no]
      · rename_i no
        cases b <;> simp [yes, no]
  rw [word_iff]
  constructor
  · intro mem
    obtain ⟨before, after, split, blank⟩ := Text.exists_trimmed text.toList
    exact ⟨before, _, after, split, blank, mem⟩
  · rintro ⟨before, word, after, split, blank, mem⟩
    obtain ⟨some, ink⟩ := isWhiteSpace_of_truthWords mem
    rw [split, Text.trimmed_append blank some ink]
    exact mem

namespace CommandLine

/-! ## Switches -/

namespace Switch

/-- The variable of the environment that sets the switch. -/
def variableName : Switch → String
  | debug => "HORIZON_DEBUG"
  | tokens => "HORIZON_SHOW_TOKENS"
  | trees => "HORIZON_SHOW_TREES"
  | values => "HORIZON_SHOW_VALUES"

/-- The settings have the switch on. -/
def isSet (s : Settings) : Switch → Bool
  | debug => s.debug
  | tokens => s.showTokens
  | trees => s.showTrees
  | values => s.showValues

end Switch

/-- The switch is on where the settings file says what it says: by the line, else by its
variable, else by the file. -/
inductive On (env : Environment) (line : Line) (file : Settings) (s : Switch) : Prop where
  | line (gives : line.gives s = true)
  | environment {text : String} (set : env.lookup s.variableName = some text)
    (truth : SpellsTruth text true)
  | file (mute : ∀ text b, env.lookup s.variableName = some text → ¬ SpellsTruth text b)
    (holds : s.isSet file = true)

section Switches

variable {env : Environment} {line : Line} {file : Settings} {s : Switch}

theorem isSet_override : s.isSet (file.applyEnvironment env) =
    override env s.variableName (s.isSet file) := by
  cases s <;> rfl

theorem isSet_enable (settings : Settings) (o : Options) : s.isSet
    (settings.enable o.debug o.showTokens o.showTrees o.showValues) =
      (s.isSet settings || s.given o) := by
  cases s <;> rfl

theorem given_options : s.given line.options = line.gives s := by
  cases s <;> rfl

theorem bind_flag?_eq_some_iff {name : String} {b : Bool} :
    (env.lookup name).bind flag? = some b ↔
      ∃ text, env.lookup name = some text ∧ SpellsTruth text b := by
  simp only [Option.bind_eq_some_iff, flag?_eq_some_iff]

/-- A variable decides where it spells a truth value, and else what was there before. -/
theorem override_iff {name : String} {old : Bool} : override env name old = true ↔
    (∃ text, env.lookup name = some text ∧ SpellsTruth text true) ∨
      (∀ text b, env.lookup name = some text → ¬ SpellsTruth text b) ∧ old = true := by
  unfold override
  cases found : (env.lookup name).bind flag? with
  | some b =>
    obtain ⟨text, set, truth⟩ := bind_flag?_eq_some_iff.mp found
    rw [Option.getD_some]
    constructor
    · rintro rfl
      exact .inl ⟨text, set, truth⟩
    · rintro (spells | ⟨mute, _⟩)
      · rw [bind_flag?_eq_some_iff.mpr spells] at found
        exact (Option.some.inj found).symm
      · exact absurd truth (mute text b set)
  | none =>
    have silent (b : Bool) : ¬ ∃ text, env.lookup name = some text ∧ SpellsTruth text b := by
      rw [← bind_flag?_eq_some_iff, found]
      nofun
    rw [Option.getD_none]
    constructor
    · exact fun holds => .inr ⟨fun text b set spells => silent b ⟨text, set, spells⟩, holds⟩
    · rintro (spells | ⟨_, holds⟩)
      · exact absurd spells (silent true)
      · exact holds

/-- The settings of a run have a switch on exactly where it is on by the three layers. -/
theorem isSet_iff_on : s.isSet ((file.applyEnvironment env).enable line.options.debug
      line.options.showTokens line.options.showTrees line.options.showValues) = true ↔
    On env line file s := by
  rw [isSet_enable, isSet_override, given_options, Bool.or_eq_true, override_iff]
  constructor
  · rintro ((⟨text, set, truth⟩ | ⟨mute, holds⟩) | gives)
    · exact .environment set truth
    · exact .file mute holds
    · exact .line gives
  · rintro (gives | ⟨set, truth⟩ | ⟨mute, holds⟩)
    · exact .inr gives
    · exact .inl (.inl ⟨_, set, truth⟩)
    · exact .inl (.inr ⟨mute, holds⟩)

end Switches

/-! ## The settings file -/

/-- The path of the settings file, and whether the line or the environment names it. -/
inductive SettingsFile (env : Environment) (named : Option String) : String → Bool → Prop where
  | line {path : String} (names : named = some path) : SettingsFile env named path true
  | environment {path : String} (unnamed : named = none)
    (names : env.lookup "HORIZON_CONFIG" = some path) : SettingsFile env named path true
  | home (unnamed : named = none) (unset : env.lookup "HORIZON_CONFIG" = none) :
    SettingsFile env named (inside ((env.lookup "HOME").getD ".") ".horizon/config.json") false

/-- What loading the settings file comes to, with whatever decodes its text. Where nothing is at
the path and nobody names it, the settings have their defaults. -/
inductive Loads (decode : Decoder) (view : Files.View) (env : Environment)
    (named : Option String) : Except LoadError Settings → Prop where
  | absent {path : String} (file : SettingsFile env named path false)
    (absent : view.isPresent path = false) :
    Loads decode view env named (.ok ⟨false, false, false, true⟩)
  | unreadable {path : String} {needed : Bool} {cause : Files.ReadError}
    (file : SettingsFile env named path needed)
    (present : needed = true ∨ view.isPresent path = true)
    (read : view.read path = .error cause) :
    Loads decode view env named (.error (.unreadable path cause))
  | malformed {path text cause : String} {needed : Bool}
    (file : SettingsFile env named path needed) (read : view.read path = .ok text)
    (wrong : decode text = .error cause) :
    Loads decode view env named (.error (.malformed path cause))
  | loaded {path text : String} {needed : Bool} {settings : Settings}
    (file : SettingsFile env named path needed) (read : view.read path = .ok text)
    (right : decode text = .ok settings) : Loads decode view env named (.ok settings)

section Loading

variable {decode : Decoder} {view : Files.View} {env : Environment} {named : Option String}
  {path : String} {needed : Bool} {result : Except LoadError Settings}

theorem exists_settingsFile (env : Environment) (named : Option String) :
    ∃ path needed, SettingsFile env named path needed := by
  cases named with
  | some path => exact ⟨path, true, .line rfl⟩
  | none =>
    cases names : env.lookup "HORIZON_CONFIG" with
    | some path => exact ⟨path, true, .environment rfl names⟩
    | none => exact ⟨_, false, .home rfl names⟩

theorem SettingsFile.load_eq (file : SettingsFile env named path needed) :
    load decode view env named =
      if needed = false ∧ view.isPresent path = false then .ok ⟨false, false, false, true⟩
      else loadFile decode view path := by
  unfold load defaultPath pathVariable
  cases file with
  | line names =>
    rw [names]
    rfl
  | environment unnamed names =>
    rw [unnamed, names]
    rfl
  | home unnamed unset =>
    rw [unnamed, unset]
    simp only [Option.isNone_none, Bool.true_and, Bool.not_eq_true', true_and]

theorem isPresent_of_read {text : String} (read : view.read path = .ok text) :
    view.isPresent path = true := by
  unfold Files.View.read at read
  unfold Files.View.isPresent
  cases entry : view path with
  | file | directory => rfl
  | missing | belowFile =>
    rw [entry] at read
    cases read

theorem loads_load (decode : Decoder) (view : Files.View) (env : Environment)
    (named : Option String) : Loads decode view env named (load decode view env named) := by
  obtain ⟨path, needed, file⟩ := exists_settingsFile env named
  rw [file.load_eq]
  split
  · rename_i missing
    obtain ⟨rfl, absent⟩ := missing
    exact .absent file absent
  rename_i there
  unfold loadFile
  cases read : view.read path with
  | error cause =>
    refine .unreadable file ?_ read
    cases needed with
    | true => exact .inl rfl
    | false => exact .inr (Bool.not_eq_false _ |>.mp fun absent => there ⟨rfl, absent⟩)
  | ok text =>
    cases right : decode text with
    | ok settings =>
      simp only [right]
      exact .loaded file read right
    | error cause =>
      simp only [right]
      exact .malformed file read right

theorem Loads.load_eq (loads : Loads decode view env named result) :
    load decode view env named = result := by
  cases loads with
  | absent file absent => rw [file.load_eq, if_pos ⟨rfl, absent⟩]
  | unreadable file present read =>
    rw [file.load_eq, if_neg fun missing => by simp [missing] at present, loadFile, read]
  | malformed file read wrong =>
    rw [file.load_eq, if_neg fun missing => by simp [isPresent_of_read read] at missing, loadFile,
      read]
    simp only [wrong]
  | loaded file read right =>
    rw [file.load_eq, if_neg fun missing => by simp [isPresent_of_read read] at missing, loadFile,
      read]
    simp only [right]

end Loading

end CommandLine

end KindScript
