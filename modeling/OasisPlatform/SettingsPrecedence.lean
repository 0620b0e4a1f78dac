import OasisPlatform.Dictionaries
import OasisPlatform.PathText

/-!
`Settings.get`: where the value of an option is taken from, and what is made of it. The names
of variables are cut by `str.replace`, keyed in their own case, laid over each other and only
then put in lower case, and a value of the parser is interpolated. What is returned is the
value of the first place that defines the option, as it stands, exactly where the place used
is that one and the interpolation keeps its text, chance equalities apart (`get_first_iff`).
-/
namespace OasisPlatform.SettingsPrecedence
open PathText Dictionaries
set_option linter.unusedSimpArgs false

variable {υ ω φ : Type}

/-- `str.upper` and `str.lower`. -/
structure Casing where
  upper : Text → Text
  lower : Text → Text

/-- The parser: the options of its sections and of the default section, by the names
    they are stored under, which are in lower case. -/
structure Settings where
  globalEnv : Bool
  sections : List (Text × List (Text × Text))
  defaults : List (Text × Text)

def defaultSection : Text := "default".toList

/-- `text.replace(old, '')`, with a number of characters still to be skipped. -/
def removeFrom (old : Text) : Nat → Text → Text
  | _,[] => []
  | skip + 1,_ :: rest => removeFrom old skip rest
  | 0,c :: rest =>
    if old.isPrefixOf (c :: rest) then removeFrom old (old.length - 1) rest else c :: removeFrom old 0 rest

def removeAll (old text : Text) : Text := removeFrom old 0 text

def sectionToEnvPrefix (casing : Casing) (sec : Text) : Text :=
  casing.upper (['_'].intercalate (splitOnChar '.' sec))

def globalMark : Text := "OASIS_".toList

/-- `'OASIS_{}_'.format(..)`. -/
def sectionMark (casing : Casing) (sec : Text) : Text := globalMark ++ sectionToEnvPrefix casing sec ++ ['_']

/-- `k.replace(mark, '')` and `v`, for `k, v` of `os.environ.items()` with `k.startswith(mark)`. -/
def envEntries (mark : Text) (environ : List (Text × υ)) : List (Text × υ) :=
  (environ.filter fun entry => mark.isPrefixOf entry.1).map fun entry => (removeAll mark entry.1,entry.2)

/-- The dictionary of these. -/
def envVars (mark : Text) (environ : List (Text × υ)) : List (Text × υ) := merge [] (envEntries mark environ)

/-- The prefix of the second map. -/
def Settings.sharedMark (settings : Settings) (casing : Casing) (sec : Text) : Text :=
  if settings.globalEnv then globalMark else sectionMark casing sec

/-- The items of the `ChainMap`: the keys of its last map come first, and the first map that
    has a key gives the value. -/
def getSectionEnvVars (settings : Settings) (casing : Casing) (environ : List (Text × υ)) (sec : Text) :
    List (Text × υ) :=
  merge (envVars (settings.sharedMark casing sec) environ) (envVars (sectionMark casing sec) environ)

/-- `vardict` of `_unify_values`. -/
def varDict (casing : Casing) (vars : List (Text × υ)) : List (Text × υ) :=
  merge [] (vars.map fun entry => (casing.lower entry.1,entry.2))

inductive InterpolationError where
  | badSyntax
  | missingOption
  | depth
  deriving DecidableEq, Repr

inductive Error where
  | noSection
  | noOption
  | interpolation (error : InterpolationError)
  deriving DecidableEq, Repr

/-- Python values: texts, dictionaries of options, and others. -/
inductive Value (φ : Type) where
  | text (text : Text)
  | options (options : List (Text × Text))
  | other (value : φ)

/-- `_unify_values`, or nothing where it raises `NoSectionError`. -/
def unifyValues (settings : Settings) (casing : Casing) (sec : Text) (vars : List (Text × Text)) :
    Option (List (List (Text × Text))) :=
  match find settings.sections sec with
  | some options => some [varDict casing vars,options,settings.defaults]
  | none => if sec = defaultSection then some [varDict casing vars,[],settings.defaults] else none

/-- `d[key]` of the three maps. -/
def lookUp (maps : List (List (Text × Text))) (key : Text) : Option Text := maps.findSome? fun entries => find entries key

def maxInterpolationDepth : Nat := 10

/-- The name in `%(name)s`, from behind the bracket. -/
def reference (rest : Text) : Option Text :=
  match rest.takeWhile (· ≠ ')'),rest.dropWhile (· ≠ ')') with
  | [],_ => none
  | name,')' :: 's' :: _ => some name
  | _,_ => none

/-- The loop of `_interpolate_some`, with a number of characters still to be skipped. -/
def interpolateLoop (resolve : Text → Except InterpolationError Text) : Nat → Text → Except InterpolationError Text
  | _,[] => .ok []
  | skip + 1,_ :: rest => interpolateLoop resolve skip rest
  | 0,c :: rest =>
    if c ≠ '%' then (interpolateLoop resolve 0 rest).map (c :: ·)
    else
      match rest with
      | '%' :: _ => (interpolateLoop resolve 1 rest).map ('%' :: ·)
      | '(' :: inner =>
        match reference inner with
        | none => .error .badSyntax
        | some name =>
          match resolve name,interpolateLoop resolve (name.length + 3) rest with
          | .error error,_ => .error error
          | .ok _,.error error => .error error
          | .ok part,.ok later => .ok (part ++ later)
      | _ => .error .badSyntax

/-- `_interpolate_some`; the number is the depth that is left. -/
def interpolateSome (casing : Casing) (maps : List (List (Text × Text))) : Nat → Text → Except InterpolationError Text
  | 0,_ => .error .depth
  | left + 1,rest =>
    interpolateLoop (fun name =>
      match lookUp maps (casing.lower name) with
      | none => .error .missingOption
      | some value => if '%' ∈ value then interpolateSome casing maps left value else .ok value) 0 rest

/-- `BasicInterpolation.before_get`. -/
def beforeGet (casing : Casing) (maps : List (List (Text × Text))) (value : Text) : Except InterpolationError Text :=
  interpolateSome casing maps maxInterpolationDepth value

/-- `ConfigParser.get` without a fallback. -/
def parserRead (settings : Settings) (casing : Casing) (sec option : Text) (vars : List (Text × Text)) :
    Except Error Text :=
  match unifyValues settings casing sec vars with
  | none => .error .noSection
  | some maps =>
    match lookUp maps (casing.lower option) with
    | none => .error .noOption
    | some value =>
      match beforeGet casing maps value with
      | .ok result => .ok result
      | .error error => .error (.interpolation error)

/-- `ConfigParser.get(section, option, vars=vars, fallback=fallback)`. -/
def parserGet (settings : Settings) (casing : Casing) (sec option : Text) (vars : List (Text × Text))
    (fallback : Option (Value φ)) : Except Error (Value φ) :=
  match parserRead settings casing sec option vars,fallback with
  | .ok value,_ => .ok (.text value)
  | .error .noSection,some value => .ok value
  | .error .noOption,some value => .ok value
  | .error error,_ => .error error

/-- The names that `self[section]` has, where there is such a section. -/
def sectionOptions (settings : Settings) (sec : Text) : List Text :=
  if sec = defaultSection then keys settings.defaults
  else
    match find settings.sections sec with
    | some options => keys (merge options settings.defaults)
    | none => []

/-- All options of a section, which is what an empty option asks for. -/
def getOptions (settings : Settings) (casing : Casing) (environ : List (Text × Text)) (sec : Text) :
    Except Error (List (Text × Text)) := do
  let vars := getSectionEnvVars settings casing environ sec
  let res ← (sectionOptions settings sec).mapM fun option => do
    let value ← parserRead settings casing sec option vars
    return (option,value)
  let fromEnv := (envEntries (sectionMark casing sec) environ).map fun entry => (casing.lower entry.1,entry.2)
  return merge res (merge [] fromEnv)

def get (settings : Settings) (casing : Casing) (environ : List (Text × Text)) (sec option : Text)
    (fallback : Option (Value φ)) : Except Error (Value φ) :=
  if option = [] then (getOptions settings casing environ sec).map .options
  else parserGet settings casing sec option (getSectionEnvVars settings casing environ sec) fallback

/-- The sections of a file, read on top of what is there. -/
def readFile (casing : Casing) (settings : Settings) (file : List (Text × List (Text × Text))) : Settings :=
  file.foldl (fun settings block =>
    let options := block.2.map fun entry => (casing.lower entry.1,entry.2)
    if block.1 = defaultSection then { settings with defaults := merge settings.defaults options }
    else { settings with sections := upsert settings.sections block.1 fun held => merge (held.getD []) options }) settings

def requiredSections : List Text :=
  ["celery","server","worker","worker.model_data","worker.default_reader_engine_options"].map String.toList

def addSection (sections : List (Text × List (Text × Text))) (sec : Text) : List (Text × List (Text × Text)) :=
  if (find sections sec).isSome then sections else sections ++ [(sec,[])]

/-- `Settings(global_env=..)`, of the files that are read. -/
def construct (casing : Casing) (globalEnv : Bool) (files : List (List (Text × List (Text × Text)))) : Settings :=
  let read := files.foldl (readFile casing) ⟨globalEnv,[],[]⟩
  { read with sections := requiredSections.foldl addSection read.sections }

theorem addSection_held {sections : List (Text × List (Text × Text))} {sec : Text} (held : (find sections sec).isSome)
    (other : Text) : (find (addSection sections other) sec).isSome := by
  rw [addSection]
  split
  · exact held
  · rw [find_append,Option.isSome_or,held,Bool.true_or]

theorem addSection_self (sections : List (Text × List (Text × Text))) (sec : Text) :
    (find (addSection sections sec) sec).isSome := by
  rw [addSection]
  split
  · assumption
  · rw [find_append,Option.isSome_or,find_cons,if_pos rfl,Option.isSome_some,Bool.or_true]

theorem addSections_held {sections : List (Text × List (Text × Text))} {sec : Text} (held : (find sections sec).isSome)
    (wanted : List Text) : (find (wanted.foldl addSection sections) sec).isSome := by
  induction wanted generalizing sections with
  | nil => exact held
  | cons other rest ih => exact ih (addSection_held held other)

theorem addSections_wanted (sections : List (Text × List (Text × Text))) {wanted : List Text} {sec : Text}
    (member : sec ∈ wanted) : (find (wanted.foldl addSection sections) sec).isSome := by
  induction wanted generalizing sections with
  | nil => cases member
  | cons other rest ih =>
    rcases List.mem_cons.mp member with rfl | later
    · exact addSections_held (addSection_self sections sec) rest
    · exact ih _ later

/-! ### Places that define an option -/

/-- Where a value may come from. -/
inductive Source where
  | env (name : Text)
  | sec
  | default
  | fallback
  deriving DecidableEq, Repr

def Settings.options (settings : Settings) (sec : Text) : List (Text × Text) := (find settings.sections sec).getD []

def Settings.known (settings : Settings) (sec : Text) : Bool :=
  (find settings.sections sec).isSome || sec = defaultSection

/-- The variables that are called the prefix and the option, in any case. -/
def named (casing : Casing) (mark option : Text) (names : List Text) : List Text :=
  names.filter fun name => mark.isPrefixOf name && casing.lower (name.drop mark.length) = casing.lower option

/-- The first place that defines the option, or what there is of it in several cases: variables
    of the section, variables of all sections, the section, the default section. -/
def first (settings : Settings) (casing : Casing) (names : List Text) (sec option : Text) : List Source :=
  let own := named casing (sectionMark casing sec) option names
  let shared := if settings.globalEnv then named casing globalMark option names else []
  if own ≠ [] then own.map .env
  else if shared ≠ [] then shared.map .env
  else if (find (settings.options sec) (casing.lower option)).isSome then [.sec]
  else if (find settings.defaults (casing.lower option)).isSome then [.default]
  else [.fallback]

/-- The variable that the maps have for the option. -/
def deciding (settings : Settings) (casing : Casing) (names : List Text) (sec option : Text) : Option Text :=
  find (varDict casing (getSectionEnvVars settings casing (names.map fun name => (name,name)) sec)) (casing.lower option)

/-- The place that is used. -/
def used (settings : Settings) (casing : Casing) (names : List Text) (sec option : Text) : Source :=
  if settings.known sec then
    match deciding settings casing names sec option with
    | some name => .env name
    | none =>
      if (find (settings.options sec) (casing.lower option)).isSome then .sec
      else if (find settings.defaults (casing.lower option)).isSome then .default
      else .fallback
  else .fallback

/-- The required sections are always there. -/
theorem construct_known (casing : Casing) (globalEnv : Bool) (files : List (List (Text × List (Text × Text)))) {sec : Text}
    (required : sec ∈ requiredSections) : (construct casing globalEnv files).known sec = true :=
  Bool.or_eq_true_iff.mpr (.inl (addSections_wanted _ required))

/-- What a place has for the option. -/
def valueOf (settings : Settings) (casing : Casing) (environ : List (Text × Text)) (sec option : Text)
    (fallback : Option (Value φ)) : Source → Option (Value φ)
  | .env name => (find environ name).map .text
  | .sec => (find (settings.options sec) (casing.lower option)).map .text
  | .default => (find settings.defaults (casing.lower option)).map .text
  | .fallback => fallback

/-- The value as it stands, or that there is none. -/
def Returns : Option (Value φ) → Except Error (Value φ) → Prop
  | some value,result => result = .ok value
  | none,result => result = .error .noSection ∨ result = .error .noOption

def ReturnsFirst (settings : Settings) (casing : Casing) (environ : List (Text × Text)) (sec option : Text)
    (fallback : Option (Value φ)) : Prop :=
  ∃ source ∈ first settings casing (keys environ) sec option,
    Returns (valueOf settings casing environ sec option fallback source)
      (get settings casing environ sec option fallback)

/-- The maps in which a reference of an interpolated value is looked up. -/
def referenceMaps (settings : Settings) (casing : Casing) (environ : List (Text × Text)) (sec : Text) :
    List (List (Text × Text)) :=
  [varDict casing (getSectionEnvVars settings casing environ sec),settings.options sec,settings.defaults]

/-- The interpolation leaves the text of a place as it is; the fallback is not interpolated. -/
def Kept (settings : Settings) (casing : Casing) (environ : List (Text × Text)) (sec option : Text)
    (fallback : Option (Value φ)) (source : Source) : Prop :=
  source = .fallback ∨ ∃ text, valueOf settings casing environ sec option fallback source = some (.text text) ∧
    beforeGet casing (referenceMaps settings casing environ sec) text = .ok text

/-- What is made of a place: the fallback as it is, a text interpolated. -/
def Comes (settings : Settings) (casing : Casing) (environ : List (Text × Text)) (sec option : Text)
    (fallback : Option (Value φ)) (source : Source) (value : Option (Value φ)) : Prop :=
  (source = .fallback ∧ value = fallback) ∨
    source ≠ .fallback ∧ ∃ text result, valueOf settings casing environ sec option fallback source = some (.text text) ∧
      beforeGet casing (referenceMaps settings casing environ sec) text = .ok result ∧ value = some (.text result)

variable {settings : Settings} {casing : Casing} {environ : List (Text × Text)} {names : List Text} {sec option : Text}
  {fallback : Option (Value φ)}

theorem envVars_mapValues (f : υ → ω) (mark : Text) (entries : List (Text × υ)) :
    envVars mark (mapValues f entries) = mapValues f (envVars mark entries) := by
  have same : envEntries mark (mapValues f entries) = mapValues f (envEntries mark entries) := by
    simp only [envEntries,mapValues,List.filter_map,List.map_map]
    rfl
  rw [envVars,same]
  exact merge_mapValues f [] _

theorem varDict_mapValues (f : υ → ω) (settings : Settings) (casing : Casing) (entries : List (Text × υ)) (sec : Text) :
    varDict casing (getSectionEnvVars settings casing (mapValues f entries) sec) =
      mapValues f (varDict casing (getSectionEnvVars settings casing entries sec)) := by
  have items : getSectionEnvVars settings casing (mapValues f entries) sec =
      mapValues f (getSectionEnvVars settings casing entries sec) := by
    rw [getSectionEnvVars,envVars_mapValues,envVars_mapValues,merge_mapValues]
    rfl
  have lowered (vars : List (Text × υ)) : (mapValues f vars).map (fun entry => (casing.lower entry.1,entry.2)) =
      mapValues f (vars.map fun entry => (casing.lower entry.1,entry.2)) := by
    simp only [mapValues,List.map_map]
    rfl
  rw [items,varDict,lowered]
  exact merge_mapValues f [] _

/-- A value in the maps is that of some variable. -/
theorem mem_varDict {entries : List (Text × υ)} {entry : Text × υ}
    (member : entry ∈ varDict casing (getSectionEnvVars settings casing entries sec)) :
    ∃ name, (name,entry.2) ∈ entries := by
  have read {mark : Text} {entry : Text × υ} (member : entry ∈ envVars mark entries) : ∃ name, (name,entry.2) ∈ entries := by
    rcases mem_merge member with none | member
    · cases none
    · obtain ⟨held,listed,rfl⟩ := List.mem_map.mp member
      exact ⟨held.1,List.mem_of_mem_filter listed⟩
  rcases mem_merge member with none | member
  · cases none
  · obtain ⟨item,listed,rfl⟩ := List.mem_map.mp member
    rcases mem_merge listed with shared | own
    · obtain ⟨name,held⟩ := read shared
      exact ⟨name,held⟩
    · obtain ⟨name,held⟩ := read own
      exact ⟨name,held⟩

theorem deciding_mem {name : Text} (decided : deciding settings casing names sec option = some name) : name ∈ names := by
  obtain ⟨key,member⟩ := mem_varDict (mem_of_find decided)
  obtain ⟨held,listed,same⟩ := List.mem_map.mp member
  obtain ⟨rfl,rfl⟩ := Prod.mk.inj same
  exact listed

/-- The maps have the text of the deciding variable. -/
theorem find_varDict (distinct : (keys environ).Nodup) :
    find (varDict casing (getSectionEnvVars settings casing environ sec)) (casing.lower option) =
      (deciding settings casing (keys environ) sec option).bind (find environ) := by
  have texts : environ = mapValues (fun name => (find environ name).getD []) ((keys environ).map fun name => (name,name)) := by
    rw [mapValues,keys,List.map_map,List.map_map]
    refine ((List.map_congr_left fun entry member => ?_).trans (List.map_id environ)).symm
    simp [find_of_mem distinct member]
  have mapped := congrArg (fun entries => find (varDict casing (getSectionEnvVars settings casing entries sec))
    (casing.lower option)) texts
  simp only [varDict_mapValues,find_mapValues] at mapped
  rw [mapped]
  change (deciding settings casing (keys environ) sec option).map _ = _
  cases decided : deciding settings casing (keys environ) sec option with
  | none => rfl
  | some name =>
    obtain ⟨text,found⟩ := Option.isSome_iff_exists.mp (find_isSome_iff.mpr (deciding_mem decided))
    simp [found]

theorem unifyValues_eq (settings : Settings) (casing : Casing) (environ : List (Text × Text)) (sec : Text) :
    unifyValues settings casing sec (getSectionEnvVars settings casing environ sec) =
      if settings.known sec then some (referenceMaps settings casing environ sec) else none := by
  rw [unifyValues,Settings.known,referenceMaps,Settings.options]
  cases find settings.sections sec with
  | some options => rfl
  | none => by_cases default : sec = defaultSection <;> simp [default]

theorem lookUp_maps (distinct : (keys environ).Nodup) :
    lookUp (referenceMaps settings casing environ sec) (casing.lower option) =
      (((deciding settings casing (keys environ) sec option).bind (find environ)).or
        (find (settings.options sec) (casing.lower option))).or (find settings.defaults (casing.lower option)) := by
  rw [lookUp,referenceMaps,List.findSome?_cons,List.findSome?_cons,List.findSome?_cons,find_varDict distinct]
  cases (deciding settings casing (keys environ) sec option).bind (find environ) <;>
    cases find (settings.options sec) (casing.lower option) <;>
      cases find settings.defaults (casing.lower option) <;> rfl

/-- Where the section is known and the option is found, the place has the text that is found. -/
theorem used_found (fallback : Option (Value φ)) (distinct : (keys environ).Nodup) (known : settings.known sec = true) {text : Text}
    (found : lookUp (referenceMaps settings casing environ sec) (casing.lower option) = some text) :
    used settings casing (keys environ) sec option ≠ .fallback ∧
      valueOf settings casing environ sec option fallback (used settings casing (keys environ) sec option) =
        some (.text text) := by
  rw [lookUp_maps distinct] at found
  rw [used,if_pos known]
  cases decided : deciding settings casing (keys environ) sec option with
  | some name =>
    rw [decided,Option.bind_some] at found
    obtain ⟨value,stored⟩ := Option.isSome_iff_exists.mp (find_isSome_iff.mpr (deciding_mem decided))
    rw [stored,Option.some_or,Option.some_or] at found
    exact ⟨(by intro same; cases same),by simp only [valueOf,stored,← Option.some.inj found,Option.map_some]⟩
  | none =>
    rw [decided,Option.bind_none,Option.none_or] at found
    cases own : find (settings.options sec) (casing.lower option) with
    | some value =>
      rw [own,Option.some_or] at found
      exact ⟨(by intro same; cases same),by simp only [Option.isSome_some,if_true,valueOf,own,found,Option.map_some]⟩
    | none =>
      rw [own,Option.none_or] at found
      exact ⟨by simp [found],by simp [found,valueOf]⟩

theorem used_missing (distinct : (keys environ).Nodup)
    (missing : lookUp (referenceMaps settings casing environ sec) (casing.lower option) = none) :
    used settings casing (keys environ) sec option = .fallback := by
  rw [used]
  by_cases known : settings.known sec = true
  · rw [if_pos known]
    rw [lookUp_maps distinct,Option.or_eq_none_iff,Option.or_eq_none_iff] at missing
    obtain ⟨⟨env,own⟩,default⟩ := missing
    cases decided : deciding settings casing (keys environ) sec option with
    | some name =>
      rw [decided,Option.bind_some] at env
      exact absurd (deciding_mem decided) (find_eq_none_iff.mp env)
    | none => simp [own,default]
  · rw [if_neg known]

/-- What is returned is what is made of the place that is used. -/
theorem returns_iff (distinct : (keys environ).Nodup) (asked : option ≠ []) (value : Option (Value φ)) :
    Returns value (get settings casing environ sec option fallback) ↔
      Comes settings casing environ sec option fallback (used settings casing (keys environ) sec option) value := by
  unfold get parserGet parserRead
  rw [if_neg asked,unifyValues_eq]
  cases known : settings.known sec with
  | false =>
    have place : used settings casing (keys environ) sec option = .fallback := by
      rw [used,known]
      rfl
    simp only [place,Comes,ne_eq,not_true_eq_false,false_and,or_false,true_and,Bool.false_eq_true,if_false]
    cases fallback <;> cases value <;> simp [Returns,eq_comm]
  | true =>
    rw [if_pos rfl]
    cases found : lookUp (referenceMaps settings casing environ sec) (casing.lower option) with
    | none =>
      simp only [used_missing distinct found,Comes,ne_eq,not_true_eq_false,false_and,or_false,true_and]
      cases fallback <;> cases value <;> simp [Returns,found,eq_comm]
    | some text =>
      obtain ⟨place,held⟩ := used_found fallback distinct known found
      simp only [Comes,place,held,false_and,false_or,ne_eq,not_false_eq_true,true_and,Option.some.injEq,Value.text.injEq]
      cases interpolated : beforeGet casing (referenceMaps settings casing environ sec) text with
      | error error => cases value <;> simp [Returns,found,interpolated]
      | ok result => cases value <;> simp [Returns,found,interpolated,eq_comm]

/-- The value of the place that is used is returned as it stands exactly when it is kept. -/
theorem returns_used_iff (distinct : (keys environ).Nodup) (asked : option ≠ []) :
    Returns (valueOf settings casing environ sec option fallback (used settings casing (keys environ) sec option))
        (get settings casing environ sec option fallback) ↔
      Kept settings casing environ sec option fallback (used settings casing (keys environ) sec option) := by
  rw [returns_iff distinct asked,Comes,Kept]
  by_cases place : used settings casing (keys environ) sec option = .fallback
  · simp [place,valueOf]
  · simp only [place,false_and,false_or,ne_eq,not_false_eq_true,true_and]
    constructor
    · rintro ⟨text,result,held,interpolated,same⟩
      rw [held] at same
      cases same
      exact ⟨text,held,interpolated⟩
    · rintro ⟨text,held,interpolated⟩
      exact ⟨text,text,held,interpolated,held⟩

theorem interpolateLoop_plain (resolve : Text → Except InterpolationError Text) {text : Text} (plain : '%' ∉ text) :
    interpolateLoop resolve 0 text = .ok text := by
  induction text with
  | nil => rfl
  | cons c rest ih =>
    have other : c ≠ '%' := fun same => plain (same ▸ List.mem_cons_self)
    rw [interpolateLoop.eq_def]
    simp only [other,ne_eq,not_false_eq_true,if_true,ih fun later => plain (List.mem_cons_of_mem _ later)]
    rfl

/-- A text without a percent sign is kept. -/
theorem beforeGet_plain (casing : Casing) (maps : List (List (Text × Text))) {text : Text} (plain : '%' ∉ text) :
    beforeGet casing maps text = .ok text :=
  interpolateLoop_plain _ plain

/-- The value of the first place that defines the option is returned as it stands exactly when
    that place is used and its text is kept; or by chance, when what is made of the place that is
    used equals what another first place has. -/
theorem get_first_iff (settings : Settings) (casing : Casing) (environ : List (Text × Text))
    (distinct : (keys environ).Nodup) (sec option : Text) (asked : option ≠ []) (fallback : Option (Value φ)) :
    ReturnsFirst settings casing environ sec option fallback ↔
      (used settings casing (keys environ) sec option ∈ first settings casing (keys environ) sec option ∧
        Kept settings casing environ sec option fallback (used settings casing (keys environ) sec option)) ∨
      ∃ source ∈ first settings casing (keys environ) sec option,
        source ≠ used settings casing (keys environ) sec option ∧
        Comes settings casing environ sec option fallback (used settings casing (keys environ) sec option)
          (valueOf settings casing environ sec option fallback source) := by
  constructor
  · rintro ⟨source,member,returned⟩
    by_cases place : source = used settings casing (keys environ) sec option
    · rw [place] at member returned
      exact .inl ⟨member,(returns_used_iff distinct asked).mp returned⟩
    · exact .inr ⟨source,member,place,(returns_iff distinct asked _).mp returned⟩
  · rintro (⟨member,kept⟩ | ⟨source,member,-,comes⟩)
    · exact ⟨_,member,(returns_used_iff distinct asked).mpr kept⟩
    · exact ⟨source,member,(returns_iff distinct asked _).mpr comes⟩

/-! ### Where the first place is used -/

/-- The prefix is not repeated in a variable that is read as the option, or called so. -/
def ReadPlainly (casing : Casing) (mark option : Text) (names : List Text) : Prop :=
  ∀ rest, mark ++ rest ∈ names →
    (casing.lower rest = casing.lower option ∨ casing.lower (removeAll mark rest) = casing.lower option) →
      removeAll mark rest = rest

/-- The variables of the option have its name in one case. -/
def OneCase (casing : Casing) (mark shared option : Text) (names : List Text) : Prop :=
  ∀ rest other, (mark ++ rest ∈ names ∨ shared ++ rest ∈ names) → (mark ++ other ∈ names ∨ shared ++ other ∈ names) →
    casing.lower rest = casing.lower option → casing.lower other = casing.lower option → rest = other

theorem removeFrom_skip (old skipped rest : Text) : removeFrom old skipped.length (skipped ++ rest) = removeFrom old 0 rest := by
  induction skipped with
  | nil => rfl
  | cons c skipped ih => exact ih

theorem removeAll_mark {mark : Text} (nonempty : mark ≠ []) (rest : Text) :
    removeAll mark (mark ++ rest) = removeAll mark rest := by
  cases mark with
  | nil => exact absurd rfl nonempty
  | cons c mark =>
    have starts : (c :: mark).isPrefixOf (c :: (mark ++ rest)) = true := by
      rw [List.isPrefixOf_iff_prefix]
      exact List.prefix_append (c :: mark) rest
    rw [removeAll,List.cons_append,removeFrom,if_pos starts]
    exact removeFrom_skip (c :: mark) mark rest

theorem mem_envEntries {mark : Text} (nonempty : mark ≠ []) {key name : Text} :
    (key,name) ∈ envEntries mark (names.map fun name => (name,name)) ↔
      ∃ rest, name = mark ++ rest ∧ name ∈ names ∧ key = removeAll mark rest := by
  rw [envEntries,List.mem_map]
  constructor
  · rintro ⟨entry,member,same⟩
    obtain ⟨listed,starts⟩ := List.mem_filter.mp member
    obtain ⟨held,among,rfl⟩ := List.mem_map.mp listed
    obtain ⟨rfl,rfl⟩ := Prod.mk.inj same
    obtain ⟨rest,rfl⟩ := List.isPrefixOf_iff_prefix.mp starts
    exact ⟨rest,rfl,among,removeAll_mark nonempty rest⟩
  · rintro ⟨rest,rfl,among,rfl⟩
    refine ⟨(mark ++ rest,mark ++ rest),List.mem_filter.mpr ⟨List.mem_map_of_mem among,?_⟩,?_⟩
    · exact List.isPrefixOf_iff_prefix.mpr (List.prefix_append mark rest)
    · rw [removeAll_mark nonempty]

/-- Read plainly, a key of the option is that of the variable called so. -/
theorem find_envVars {mark : Text} (nonempty : mark ≠ []) (plain : ReadPlainly casing mark option names) {key : Text}
    (same : casing.lower key = casing.lower option) :
    find (envVars mark (names.map fun name => (name,name))) key =
      if mark ++ key ∈ names then some (mark ++ key) else none := by
  have only {name : Text} (member : (key,name) ∈ envEntries mark (names.map fun name => (name,name))) :
      name = mark ++ key ∧ name ∈ names := by
    obtain ⟨rest,rfl,listed,rfl⟩ := (mem_envEntries nonempty).mp member
    rw [plain rest listed (.inr same)]
    exact ⟨rfl,listed⟩
  by_cases listed : mark ++ key ∈ names
  · rw [if_pos listed]
    refine find_merge_only ((mem_envEntries nonempty).mpr ⟨key,rfl,listed,?_⟩) fun name member => (only member).1
    exact (plain key listed (.inl same)).symm
  · rw [if_neg listed,envVars,find_merge_absent]
    · rfl
    · intro member
      obtain ⟨entry,among,rfl⟩ := List.mem_map.mp member
      obtain ⟨called,held⟩ := only among
      exact listed (called ▸ held)

theorem mem_named {mark name : Text} :
    name ∈ named casing mark option names ↔
      name ∈ names ∧ ∃ rest, name = mark ++ rest ∧ casing.lower rest = casing.lower option := by
  rw [named,List.mem_filter,Bool.and_eq_true,decide_eq_true_iff,List.isPrefixOf_iff_prefix]
  refine and_congr_right fun _ => ⟨?_,?_⟩
  · rintro ⟨⟨rest,rfl⟩,same⟩
    rw [List.drop_left] at same
    exact ⟨rest,rfl,same⟩
  · rintro ⟨rest,rfl,same⟩
    exact ⟨List.prefix_append mark rest,by rw [List.drop_left,same]⟩

theorem named_eq_nil {mark : Text} (absent : ∀ key, casing.lower key = casing.lower option → mark ++ key ∉ names) :
    named casing mark option names = [] := by
  rw [List.eq_nil_iff_forall_not_mem]
  intro name member
  obtain ⟨listed,key,rfl,same⟩ := mem_named.mp member
  exact absent key same listed

theorem envVars_nodup (mark : Text) (entries : List (Text × υ)) : (keys (envVars mark entries)).Nodup := by
  have empty : (keys ([] : List (Text × υ))).Nodup := List.nodup_nil
  exact keys_merge_nodup empty _

theorem sectionMark_ne_nil (casing : Casing) (sec : Text) : sectionMark casing sec ≠ [] := by
  unfold sectionMark
  simp

theorem sharedMark_ne_nil (settings : Settings) (casing : Casing) (sec : Text) : settings.sharedMark casing sec ≠ [] := by
  unfold Settings.sharedMark
  split
  · decide
  · exact sectionMark_ne_nil casing sec

/-- The variable of the section called so, or else the shared one. -/
def calledFor (casing : Casing) (settings : Settings) (names : List Text) (sec key : Text) : Option Text :=
  if sectionMark casing sec ++ key ∈ names then some (sectionMark casing sec ++ key)
  else if settings.sharedMark casing sec ++ key ∈ names then some (settings.sharedMark casing sec ++ key)
  else none

theorem calledFor_eq_some {key name : Text} :
    calledFor casing settings names sec key = some name ↔
      sectionMark casing sec ++ key ∈ names ∧ sectionMark casing sec ++ key = name ∨
        sectionMark casing sec ++ key ∉ names ∧ settings.sharedMark casing sec ++ key ∈ names ∧
          settings.sharedMark casing sec ++ key = name := by
  unfold calledFor
  split_ifs with here there
  · simp [here]
  · simp [here,there]
  · simp [here,there]

theorem calledFor_eq_none {key : Text} :
    calledFor casing settings names sec key = none ↔
      sectionMark casing sec ++ key ∉ names ∧ settings.sharedMark casing sec ++ key ∉ names := by
  unfold calledFor
  split_ifs with here there
  · simp [here]
  · simp [here,there]
  · simp [here,there]

section
variable (own : ReadPlainly casing (sectionMark casing sec) option names)
  (shared : ReadPlainly casing (settings.sharedMark casing sec) option names)
include own shared

theorem find_sectionEnvVars {key : Text} (same : casing.lower key = casing.lower option) :
    find (getSectionEnvVars settings casing (names.map fun name => (name,name)) sec) key =
      calledFor casing settings names sec key := by
  rw [getSectionEnvVars,find_merge (envVars_nodup _ _),find_envVars (sectionMark_ne_nil casing sec) own same,
    find_envVars (sharedMark_ne_nil settings casing sec) shared same,calledFor]
  split <;> rfl

theorem deciding_none (absent : ∀ key, casing.lower key = casing.lower option → calledFor casing settings names sec key = none) :
    deciding settings casing names sec option = none := by
  rw [deciding,varDict,find_merge_absent]
  · rfl
  · intro member
    obtain ⟨entry,listed,key⟩ := List.mem_map.mp member
    obtain ⟨item,held,rfl⟩ := List.mem_map.mp listed
    have found := find_sectionEnvVars own shared key
    rw [absent item.1 key,find_eq_none_iff] at found
    exact found (mem_keys held)

theorem deciding_called (one : OneCase casing (sectionMark casing sec) (settings.sharedMark casing sec) option names)
    {key name : Text} (same : casing.lower key = casing.lower option)
    (called : calledFor casing settings names sec key = some name) :
    deciding settings casing names sec option = some name := by
  have present {key name : Text} (called : calledFor casing settings names sec key = some name) :
      sectionMark casing sec ++ key ∈ names ∨ settings.sharedMark casing sec ++ key ∈ names :=
    (calledFor_eq_some.mp called).imp (·.1) (·.2.1)
  have distinct : (keys (getSectionEnvVars settings casing (names.map fun name => (name,name)) sec)).Nodup :=
    keys_merge_nodup (envVars_nodup _ _) _
  have held := (find_sectionEnvVars own shared same).trans called
  rw [deciding,varDict]
  refine find_merge_only (List.mem_map.mpr ⟨(key,name),mem_of_find held,by rw [same]⟩) fun another listed => ?_
  obtain ⟨item,among,equal⟩ := List.mem_map.mp listed
  obtain ⟨lower,rfl⟩ := Prod.mk.inj equal
  have other := find_sectionEnvVars own shared lower
  rw [find_of_mem distinct among] at other
  obtain rfl : item.1 = key := one _ _ (present other.symm) (present called) lower same
  exact Option.some.inj (other.trans called)

/-- In a known section the first place is used, when no prefix is repeated and the variables of
    the option have one case. -/
theorem used_first (known : settings.known sec = true)
    (one : OneCase casing (sectionMark casing sec) (settings.sharedMark casing sec) option names) :
    used settings casing names sec option ∈ first settings casing names sec option := by
  rw [used,if_pos known,first]
  by_cases some : ∃ key name, casing.lower key = casing.lower option ∧ calledFor casing settings names sec key = some name
  · obtain ⟨key,name,same,called⟩ := some
    rw [deciding_called own shared one same called]
    rcases calledFor_eq_some.mp called with ⟨here,rfl⟩ | ⟨here,there,rfl⟩
    · have member : sectionMark casing sec ++ key ∈ named casing (sectionMark casing sec) option names :=
        mem_named.mpr ⟨here,key,rfl,same⟩
      simp only [List.ne_nil_of_mem member,ne_eq,not_false_eq_true,if_true]
      exact List.mem_map_of_mem member
    · have none : named casing (sectionMark casing sec) option names = [] :=
        named_eq_nil fun rest lower listed => here (one _ _ (.inl listed) (.inr there) lower same ▸ listed)
      have everywhere : settings.globalEnv = true := by
        by_contra off
        rw [Settings.sharedMark,if_neg off] at there
        exact here there
      rw [Settings.sharedMark,if_pos everywhere] at there ⊢
      have member : globalMark ++ key ∈ named casing globalMark option names := mem_named.mpr ⟨there,key,rfl,same⟩
      simp only [none,ne_eq,not_true_eq_false,if_false,everywhere,if_true,List.ne_nil_of_mem member,not_false_eq_true]
      exact List.mem_map_of_mem member
  · push Not at some
    have absent (key : Text) (same : casing.lower key = casing.lower option) : calledFor casing settings names sec key = none :=
      Option.eq_none_iff_forall_ne_some.mpr fun name => some key name same
    rw [deciding_none own shared absent]
    have none : named casing (sectionMark casing sec) option names = [] :=
      named_eq_nil fun key same => (calledFor_eq_none.mp (absent key same)).1
    have others : (if settings.globalEnv then named casing globalMark option names else []) = [] := by
      cases everywhere : settings.globalEnv with
      | false => rfl
      | true =>
        have mark : settings.sharedMark casing sec = globalMark := by rw [Settings.sharedMark,everywhere]; rfl
        exact named_eq_nil fun key same => mark ▸ (calledFor_eq_none.mp (absent key same)).2
    simp only [none,others,ne_eq,not_true_eq_false,if_false]
    split <;> [skip; split] <;> exact List.mem_singleton_self _

end

/-- In a required section, of whatever files, the first place is used, and its value returned when
    it is kept. -/
theorem required_returned {globalEnv : Bool} {files : List (List (Text × List (Text × Text)))}
    (distinct : (keys environ).Nodup) (asked : option ≠ []) (required : sec ∈ requiredSections)
    (own : ReadPlainly casing (sectionMark casing sec) option (keys environ))
    (shared : ReadPlainly casing ((construct casing globalEnv files).sharedMark casing sec) option (keys environ))
    (one : OneCase casing (sectionMark casing sec) ((construct casing globalEnv files).sharedMark casing sec) option
      (keys environ))
    (kept : Kept (construct casing globalEnv files) casing environ sec option fallback
      (used (construct casing globalEnv files) casing (keys environ) sec option)) :
    ReturnsFirst (construct casing globalEnv files) casing environ sec option fallback :=
  ⟨_,used_first own shared (construct_known casing globalEnv files required) one,
    (returns_used_iff distinct asked).mpr kept⟩

def asciiCasing : Casing := ⟨List.map Char.toUpper,List.map Char.toLower⟩

/-- The parser with the required sections only. -/
def bareSettings : Settings := construct asciiCasing true []

def databasePass (text : String) : List (Text × Text) := [("OASIS_SERVER_DB_PASS".toList,text.toList)]

/-- A password with a percent sign is not returned but raises, and a variable called otherwise is
    returned for an option that nothing defines. -/
theorem percent_raises_and_mark_repeated :
    get bareSettings asciiCasing (databasePass "50%off") "server".toList "db_pass".toList (none : Option (Value Unit)) =
        .error (.interpolation .badSyntax) ∧
      ¬ ReturnsFirst bareSettings asciiCasing (databasePass "50%off") "server".toList "db_pass".toList
        (none : Option (Value Unit)) ∧
      get bareSettings asciiCasing [("OASIS_DB_OASIS_HOST".toList,"here".toList)] "server".toList "db_host".toList
        (none : Option (Value Unit)) = .ok (.text "here".toList) ∧
      ¬ ReturnsFirst bareSettings asciiCasing [("OASIS_DB_OASIS_HOST".toList,"here".toList)] "server".toList
        "db_host".toList (none : Option (Value Unit)) := by
  have raised : get bareSettings asciiCasing (databasePass "50%off") "server".toList "db_pass".toList
      (none : Option (Value Unit)) = .error (.interpolation .badSyntax) := rfl
  have misread : get bareSettings asciiCasing [("OASIS_DB_OASIS_HOST".toList,"here".toList)] "server".toList
      "db_host".toList (none : Option (Value Unit)) = .ok (.text "here".toList) := rfl
  have own : first bareSettings asciiCasing (keys (databasePass "50%off")) "server".toList "db_pass".toList =
      [.env "OASIS_SERVER_DB_PASS".toList] := by decide
  have undefined : first bareSettings asciiCasing (keys [("OASIS_DB_OASIS_HOST".toList,"here".toList)]) "server".toList
      "db_host".toList = [.fallback] := by decide
  refine ⟨raised,?_,misread,?_⟩
  · rintro ⟨source,member,returned⟩
    rw [own,List.mem_singleton] at member
    subst member
    rw [raised] at returned
    cases returned
  · rintro ⟨source,member,returned⟩
    rw [undefined,List.mem_singleton] at member
    subst member
    rw [misread] at returned
    rcases returned with missing | missing <;> cases missing

/-- A plain password is returned. -/
theorem plain_pass_returned :
    ReturnsFirst bareSettings asciiCasing (databasePass "secret") "server".toList "db_pass".toList
      (none : Option (Value Unit)) := by
  refine (get_first_iff bareSettings asciiCasing (databasePass "secret") (by decide) "server".toList "db_pass".toList
    (by decide) none).mpr (.inl ⟨by decide,.inr ⟨"secret".toList,rfl,?_⟩⟩)
  exact beforeGet_plain _ _ (by decide)

end OasisPlatform.SettingsPrecedence
