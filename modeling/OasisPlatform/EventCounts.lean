import OasisPlatform.Starting

/-!
The number of events of an analysis, which `validate_loss_generation` checks the settings
files for and `get_num_events` then reads from them. The two go through the same JSON in
their own ways, and on settings that are valid they agree exactly where `Countable` says
(`events_counted_iff`).
-/
namespace OasisPlatform.EventCounts
open OasisPlatform.SharedRow OasisPlatform.Models OasisPlatform.AnalysisTasks OasisPlatform.JsonValues
open OasisPlatform.Starting
set_option linter.unusedSimpArgs false

/-- The options in the model settings. -/
def eventOptions (modelSettings : Json) : Option (List Json) := do
  let settings ← modelSettings.get "model_settings" (.object [])
  let eventSet ← settings.get "event_set" .null
  let options ← eventSet.get "options" (.array [])
  options.elements

def isSelected (selected option : Json) : Bool := (option.item "id").any fun id => id.same selected

def isSized (option : Json) : Bool := (option.item "number_of_events").isSome

/-- An option that counts events has an `id` that can be a key. -/
def isKeyed (option : Json) : Bool :=
  match option.contains "number_of_events" with
  | none => false
  | some false => true
  | some true => (option.item "id").any Json.hashable

/-- The size in the first option with the id. -/
def firstSize (selected : Json) (options : List Json) : Option Json :=
  (options.find? (isSelected selected)).bind fun option => option.item "number_of_events"

/-- The size in the last option that has one with the id. -/
def lastSize (selected : Json) (options : List Json) : Option Json :=
  (options.reverse.find? fun option => isSized option && isSelected selected option).bind
    fun option => option.item "number_of_events"

def eventIds (analysisSettings : Json) : Json := (analysisSettings.item "event_ids").getD (.array [])

/-- How many events the settings stand for: as many as there are in a list of ids, or else
    the size of the selected option. -/
def settingsEvents (modelSettings analysisSettings : Json) : Option Json :=
  match eventIds analysisSettings with
  | .array (event :: rest) => some (.number ↑(event :: rest).length)
  | _ => do
    let selected ← eventSetSelected analysisSettings
    let options ← eventOptions modelSettings
    firstSize selected options

/-- The options can be keyed by their ids. -/
def Keyed (modelSettings : Json) (options : List Json) : Prop :=
  eventOptions modelSettings = some options ∧ ∀ option ∈ options, isKeyed option = true

def LastIs (modelSettings selected size : Json) : Prop :=
  ∃ options, Keyed modelSettings options ∧ lastSize selected options = some size

def FirstIs (modelSettings selected size : Json) : Prop :=
  (eventOptions modelSettings).bind (firstSize selected) = some size

def LastIsFirst (modelSettings selected : Json) : Prop :=
  ∃ options, Keyed modelSettings options ∧ lastSize selected options = firstSize selected options

/-- What is needed for event ids that are no list of events, by their length. -/
def LengthCountable (modelSettings selected : Json) : Nat → Prop
  | 0 => LastIsFirst modelSettings selected
  | 1 => ∃ size, FirstIs modelSettings selected size ∧ LastIs modelSettings selected size
  | count + 2 => FirstIs modelSettings selected (.number ↑(count + 2))

/-- What the check leaves open about the settings. -/
def Countable (modelSettings analysisSettings : Json) : Prop :=
  ∃ selected, eventSetSelected analysisSettings = some selected ∧
    match eventIds analysisSettings with
    | .array [] => LengthCountable modelSettings selected 0
    | .array [_] => LastIs modelSettings selected (.number 1)
    | .array (_ :: _ :: _) => True
    | .string text => LengthCountable modelSettings selected text.length
    | .object fields => LengthCountable modelSettings selected fields.length
    | _ => False

theorem same_hashable {id selected : Json} (same : id.same selected = true) (hashable : id.hashable = true) :
    selected.hashable = true := by
  cases id <;> cases selected <;> simp [Json.same,Json.hashable,Json.numeric] at same hashable ⊢

/-- An option as an entry of the dictionary. -/
def sizeEntry (option : Json) : Option (Json × Json) := do
  let id ← option.item "id"
  let numberOfEvents ← option.item "number_of_events"
  some (id,numberOfEvents)

theorem eventSetSizes_cons (sizes : List (Json × Json)) (option : Json) (rest : List Json) :
    eventSetSizes sizes (option :: rest) =
      if isKeyed option then eventSetSizes ((sizeEntry option).toList ++ sizes) rest else none := by
  cases option with
  | object fields =>
    cases sized : fields.lookup "number_of_events" with
    | none =>
      cases keyed : fields.lookup "id" <;> simp [eventSetSizes,isKeyed,sizeEntry,Json.contains,Json.item,sized,keyed]
    | some numberOfEvents =>
      cases keyed : fields.lookup "id" <;> simp [eventSetSizes,isKeyed,sizeEntry,Json.contains,Json.item,sized,keyed]
  | array items =>
    cases sized : items.any (Json.same (.string "number_of_events")) <;>
      simp [eventSetSizes,isKeyed,sizeEntry,Json.contains,Json.item,sized]
  | string text =>
    by_cases sized : "number_of_events".toList <:+: text.toList <;>
      simp only [eventSetSizes,isKeyed,sizeEntry,Json.contains,Json.item,sized] <;> rfl
  | _ => rfl

theorem eventSetSizes_eq (options : List Json) (sizes : List (Json × Json)) :
    eventSetSizes sizes options =
      if options.all isKeyed then some ((options.filterMap sizeEntry).reverse ++ sizes) else none := by
  induction options generalizing sizes with
  | nil => rfl
  | cons option rest ih =>
    rw [eventSetSizes_cons,List.all_cons]
    cases keyed : isKeyed option with
    | false => rfl
    | true =>
      rw [if_pos rfl,ih,Bool.true_and]
      cases entry : sizeEntry option <;> simp [entry]

/-- The dictionary has the last size for an id. -/
theorem lastSize_entries (selected : Json) (options : List Json) :
    ((options.filterMap sizeEntry).reverse.find? fun size => size.1.same selected).map Prod.snd =
      lastSize selected options := by
  have entry_selected : ∀ option, ((sizeEntry option).any fun size => size.1.same selected) =
      (isSized option && isSelected selected option) := by
    intro option
    cases keyed : option.item "id" <;> cases sized : option.item "number_of_events" <;>
      simp [sizeEntry,isSized,isSelected,keyed,sized]
  rw [← List.filterMap_reverse,List.find?_filterMap,lastSize]
  simp only [entry_selected]
  cases found : options.reverse.find? fun option => isSized option && isSelected selected option with
  | none => rfl
  | some option =>
    have chosen := List.find?_some found
    cases keyed : option.item "id" with
    | none => simp [isSelected,keyed] at chosen
    | some id => cases sized : option.item "number_of_events" <;> simp [sizeEntry,keyed,sized]

theorem eventSetOptions_iff {modelSettings : Json} {sizes : List (Json × Json)} :
    (∃ options, eventSetOptions modelSettings = some (options,sizes)) ↔
      ∃ options, Keyed modelSettings options ∧ sizes = (options.filterMap sizeEntry).reverse := by
  have entries : ∀ options, eventSetSizes [] options = some sizes ↔
      (∀ option ∈ options, isKeyed option = true) ∧ sizes = (options.filterMap sizeEntry).reverse := by
    intro options
    rw [eventSetSizes_eq,← List.all_eq_true]
    cases options.all isKeyed <;> simp [eq_comm]
  simp only [eventSetOptions,Keyed,eventOptions,Option.bind_eq_bind,Option.bind_eq_some_iff,Option.some.injEq,
    Prod.mk.injEq]
  constructor
  · rintro ⟨_,settings,hasSettings,eventSet,hasSet,options,hasOptions,listed,elements,_,sized,_,rfl⟩
    obtain ⟨keyed,same⟩ := (entries listed).mp sized
    exact ⟨listed,⟨⟨settings,hasSettings,eventSet,hasSet,options,hasOptions,elements⟩,keyed⟩,same⟩
  · rintro ⟨listed,⟨⟨settings,hasSettings,eventSet,hasSet,options,hasOptions,elements⟩,keyed⟩,same⟩
    exact ⟨options,settings,hasSettings,eventSet,hasSet,options,hasOptions,listed,elements,sizes,
      (entries listed).mpr ⟨keyed,same⟩,rfl,rfl⟩

/-- Of the options of one event set, the selected ones that count events have keys. -/
theorem lastSize_hashable {selected size : Json} {options : List Json} (keyed : ∀ option ∈ options, isKeyed option = true)
    (found : lastSize selected options = some size) : selected.hashable = true := by
  obtain ⟨option,last,sized⟩ := Option.bind_eq_some_iff.mp found
  have member := List.mem_reverse.mp (List.mem_of_find?_eq_some last)
  have chosen := List.find?_some last
  have key := keyed option member
  simp only [isSized,isSelected,Bool.and_eq_true,Option.any_eq_true] at chosen
  obtain ⟨_,id,identified,same⟩ := chosen
  cases option with
  | object fields =>
    simp only [Json.item] at identified sized
    simp only [isKeyed,Json.contains,Json.item,identified,sized,Option.isSome_some,Option.any_some] at key
    exact same_hashable same key
  | _ => cases identified

theorem eventSetSize_ok {ctx : StartContext} {modelSettings selected size : Json} :
    eventSetSize ctx modelSettings selected = .ok size ↔ LastIs modelSettings selected size := by
  constructor
  · intro counted
    unfold eventSetSize at counted
    split at counted
    · cases counted
    · rename_i listed sizes read
      obtain ⟨options,keyed,rfl⟩ := eventSetOptions_iff.mp ⟨listed,read⟩
      split_ifs at counted
      split at counted
      · rename_i entry found
        cases counted
        exact ⟨options,keyed,by rw [← lastSize_entries,found,Option.map_some]⟩
      · cases counted
  · rintro ⟨options,keyed,last⟩
    obtain ⟨listed,read⟩ := eventSetOptions_iff.mpr ⟨options,keyed,rfl⟩
    have hashable := lastSize_hashable keyed.2 last
    rw [← lastSize_entries] at last
    obtain ⟨entry,found,rfl⟩ := Option.map_eq_some_iff.mp last
    simp only [eventSetSize,read,if_pos hashable,found]

/-! ### Valid settings -/

/-- The settings files of a model with dynamic loss chunks, and what is read from them. -/
structure SettingsFiles (ctx : StartContext) (model : AnalysisModel) (analysis : Analysis)
    (modelSettings analysisSettings : Json) : Prop where
  dynamic : (getChunkingOptions ctx model).lossStrategy = .dynamicChunks
  resourceFile : model.resourceFile.bind ctx.readJson = some modelSettings
  settingsFile : (analysis.values .settingsFile).bind ctx.readJson = some analysisSettings

theorem get_item {value found default : Json} {key : String} (read : value.get key default = some found) :
    found = (value.item key).getD default := by
  cases value with
  | object fields => exact (Option.some.inj read).symm
  | _ => cases read

theorem item_get {value found : Json} {key : String} (held : value.item key = some found) (default : Json) :
    value.get key default = some found := by
  cases value with
  | object fields =>
    simp only [Json.item] at held
    simp only [Json.get,held,Option.getD_some]
  | _ => cases held

theorem truthy_item {value size : Json} {key : String} (found : value.get key .null = some size)
    (given : size.truthy = true) : value.item key = some size := by
  rw [get_item found] at given ⊢
  cases held : value.item key with
  | none =>
    rw [held] at given
    cases given
  | some other => rfl

theorem get_selected {option id selected : Json} (found : option.get "id" .null = some id)
    (given : selected.truthy = true) : id.same selected = isSelected selected option := by
  rw [get_item found,isSelected]
  cases option.item "id" with
  | none => cases selected <;> simp [Json.truthy,Json.same] at given ⊢
  | some other => rfl

theorem matchedEvents_head {selected : Json} (given : selected.truthy = true) {options matched : List Json}
    (found : matchedEvents selected options = some matched) : matched.head? = options.find? (isSelected selected) := by
  induction options generalizing matched with
  | nil =>
    cases found
    rfl
  | cons option rest ih =>
    simp only [matchedEvents,Option.bind_eq_bind,Option.bind_eq_some_iff,Option.some.injEq] at found
    obtain ⟨id,identified,others,foundRest,rfl⟩ := found
    rw [get_selected identified given,List.find?_cons]
    cases isSelected selected option with
    | true => rfl
    | false => exact ih foundRest

/-- Where there are options, it does not matter what stands for a missing event set. -/
theorem eventSet_given {settings eventSet options : Json} (hasSet : settings.get "event_set" (.object []) = some eventSet)
    (hasOptions : eventSet.get "options" (.array []) = some options) (given : options.truthy = true) :
    settings.get "event_set" .null = some eventSet := by
  cases held : settings.item "event_set" with
  | none =>
    have absent := get_item hasSet
    rw [held,Option.getD_none] at absent
    subst absent
    cases hasOptions
    cases given
  | some other =>
    obtain rfl := Option.some.inj ((item_get held _).symm.trans hasSet)
    exact item_get held .null

/-- Without event ids, a valid selection is of an option that has a size. -/
theorem validateSettings_sized {ctx : StartContext} {modelSettings analysisSettings ids : Json}
    (valid : validateSettings ctx modelSettings analysisSettings [] = some [])
    (read : analysisSettings.get "event_ids" .null = some ids) (ungiven : ids.truthy = false) :
    ∃ selected size, eventSetSelected analysisSettings = some selected ∧ FirstIs modelSettings selected size := by
  simp only [validateSettings,read,ungiven,Option.bind_eq_bind,Option.bind_some,Bool.false_eq_true,if_false,
    Option.bind_eq_some_iff] at valid
  obtain ⟨selected,chosen,settings,hasSettings,eventSet,hasSet,options,hasOptions,listed,elements,matched,found,
    valid⟩ := valid
  cases matched with
  | nil => exact absurd (Option.some.inj valid) (setError_ne_nil _ _ _)
  | cons first rest =>
    simp only [Option.bind_eq_some_iff,Option.some.injEq,setErrorWhen_nil,Bool.not_eq_false',and_true] at valid
    obtain ⟨size,sized,counted,optionsGiven,selectedGiven⟩ := valid
    have head := matchedEvents_head selectedGiven found
    refine ⟨selected,size,chosen,?_⟩
    simp only [FirstIs,eventOptions,firstSize,hasSettings,eventSet_given hasSet hasOptions optionsGiven,hasOptions,
      elements,Option.bind_eq_bind,Option.bind_some,← head,List.head?_cons]
    exact truthy_item sized counted

theorem eventIds_truthy {analysisSettings ids : Json} (read : analysisSettings.get "event_ids" .null = some ids) :
    ids.truthy = (eventIds analysisSettings).truthy := by
  rw [get_item read,eventIds]
  cases analysisSettings.item "event_ids" with
  | none => rfl
  | some other => rfl

section Files
variable {ctx : StartContext} {model : AnalysisModel} {analysis : Analysis} {modelSettings analysisSettings : Json}

theorem SettingsFiles.valid (files : SettingsFiles ctx model analysis modelSettings analysisSettings)
    (valid : validateLossGeneration ctx model analysis .v2 [] = some []) :
    validateSettings ctx modelSettings analysisSettings [] = some [] := by
  obtain ⟨resourceFile,resource,readModel⟩ := Option.bind_eq_some_iff.mp files.resourceFile
  obtain ⟨settingsFile,settings,readAnalysis⟩ := Option.bind_eq_some_iff.mp files.settingsFile
  simpa [validateLossGeneration,files.dynamic,resource,settings,readModel,readAnalysis] using valid

theorem first_of_valid (files : SettingsFiles ctx model analysis modelSettings analysisSettings)
    (valid : validateLossGeneration ctx model analysis .v2 [] = some [])
    (ungiven : (eventIds analysisSettings).truthy = false) {selected : Json}
    (chosen : eventSetSelected analysisSettings = some selected) : ∃ size, FirstIs modelSettings selected size := by
  have checked := files.valid valid
  obtain ⟨ids,read,_⟩ := Option.bind_eq_some_iff.mp checked
  obtain ⟨other,size,same,first⟩ := validateSettings_sized checked read ((eventIds_truthy read).trans ungiven)
  obtain rfl := Option.some.inj (same.symm.trans chosen)
  exact ⟨size,first⟩

theorem selectedEvents_iff {count : Nat} {selected : Json} : selectedEvents analysisSettings = some (count,selected) ↔
    eventSetSelected analysisSettings = some selected ∧ (eventIds analysisSettings).length = some count := by
  cases analysisSettings with
  | object fields =>
    cases chosen : eventSetSelected (.object fields) <;>
      simp [selectedEvents,chosen,Json.get,eventIds,Json.item,Option.bind_eq_some_iff,and_comm]
  | _ => simp [selectedEvents,eventSetSelected,Json.get]

/-- The counting, by the event ids and the last size of the selected option. -/
theorem getNumEvents_ok (files : SettingsFiles ctx model analysis modelSettings analysisSettings) {events : Json} :
    getNumEvents ctx model analysis = .ok (some events) ↔
      ∃ count selected, eventSetSelected analysisSettings = some selected ∧
        (eventIds analysisSettings).length = some count ∧
        if count > 1 then events = .number count else LastIs modelSettings selected events := by
  obtain ⟨resourceFile,resource,readModel⟩ := Option.bind_eq_some_iff.mp files.resourceFile
  obtain ⟨settingsFile,settings,readAnalysis⟩ := Option.bind_eq_some_iff.mp files.settingsFile
  have read : readSettings ctx model analysis = some (analysisSettings,modelSettings) := by
    simp [readSettings,settings,readAnalysis,resource,readModel]
  simp only [getNumEvents,files.dynamic,ne_eq,not_true_eq_false,if_false,read]
  constructor
  · intro counted
    split at counted
    · cases counted
    · rename_i count selected found
      obtain ⟨chosen,length⟩ := selectedEvents_iff.mp found
      refine ⟨count,selected,chosen,length,?_⟩
      split_ifs at counted ⊢ with several
      · exact (Option.some.inj (Except.ok.inj counted)).symm
      · cases size : eventSetSize ctx modelSettings selected with
        | ok found =>
          rw [size] at counted
          cases counted
          exact eventSetSize_ok.mp size
        | error error =>
          rw [size] at counted
          cases counted
  · rintro ⟨count,selected,chosen,length,rule⟩
    rw [selectedEvents_iff.mpr ⟨chosen,length⟩]
    simp only
    split_ifs at rule ⊢ with several
    · rw [rule]
    · rw [eventSetSize_ok.mpr rule]
      rfl

/-- Event ids that are no list of events. -/
theorem counted_by_set {selected : Json} {count : Nat} (first : count = 0 → ∃ size, FirstIs modelSettings selected size) :
    (∃ events, FirstIs modelSettings selected events ∧
      if count > 1 then events = .number count else LastIs modelSettings selected events) ↔
      LengthCountable modelSettings selected count := by
  match count with
  | 0 =>
    obtain ⟨size,first⟩ := first rfl
    constructor
    · rintro ⟨events,isFirst,options,keyed,last⟩
      refine ⟨options,keyed,?_⟩
      rw [FirstIs,keyed.1] at isFirst
      exact last.trans isFirst.symm
    · rintro ⟨options,keyed,same⟩
      refine ⟨size,first,options,keyed,?_⟩
      rw [FirstIs,keyed.1] at first
      exact same.trans first
  | 1 => exact Iff.rfl
  | count + 2 => simp [LengthCountable]

theorem settingsEvents_by_set {selected events : Json} (chosen : eventSetSelected analysisSettings = some selected)
    (unlisted : ∀ event rest, eventIds analysisSettings ≠ .array (event :: rest)) :
    settingsEvents modelSettings analysisSettings = some events ↔ FirstIs modelSettings selected events := by
  unfold settingsEvents
  split
  · rename_i event rest listed
    exact absurd listed (unlisted event rest)
  · simp only [chosen,Option.bind_eq_bind,Option.bind_some,FirstIs]

/-- Settings whose event ids are no list of events. -/
theorem set_counted_iff (files : SettingsFiles ctx model analysis modelSettings analysisSettings)
    (valid : validateLossGeneration ctx model analysis .v2 [] = some []) {count : Nat}
    (length : (eventIds analysisSettings).length = some count)
    (ungiven : count = 0 → (eventIds analysisSettings).truthy = false)
    (unlisted : ∀ event rest, eventIds analysisSettings ≠ .array (event :: rest)) :
    (∃ events, settingsEvents modelSettings analysisSettings = some events ∧
      getNumEvents ctx model analysis = .ok (some events)) ↔
      ∃ selected, eventSetSelected analysisSettings = some selected ∧
        LengthCountable modelSettings selected count := by
  constructor
  · rintro ⟨events,stood,counted⟩
    obtain ⟨other,selected,chosen,same,rule⟩ := (getNumEvents_ok files).mp counted
    obtain rfl := Option.some.inj (same.symm.trans length)
    have first := (settingsEvents_by_set chosen unlisted).mp stood
    exact ⟨selected,chosen,(counted_by_set fun empty => first_of_valid files valid (ungiven empty) chosen).mp
      ⟨events,first,rule⟩⟩
  · rintro ⟨selected,chosen,countable⟩
    obtain ⟨events,first,rule⟩ :=
      (counted_by_set fun empty => first_of_valid files valid (ungiven empty) chosen).mpr countable
    exact ⟨events,(settingsEvents_by_set chosen unlisted).mpr first,
      (getNumEvents_ok files).mpr ⟨count,selected,chosen,length,rule⟩⟩

/-- Settings with a list of events. -/
theorem ids_counted_iff (files : SettingsFiles ctx model analysis modelSettings analysisSettings) {event : Json}
    {rest : List Json} (listed : eventIds analysisSettings = .array (event :: rest)) :
    (∃ events, settingsEvents modelSettings analysisSettings = some events ∧
      getNumEvents ctx model analysis = .ok (some events)) ↔
      ∃ selected, eventSetSelected analysisSettings = some selected ∧
        (rest = [] → LastIs modelSettings selected (.number 1)) := by
  have stood : settingsEvents modelSettings analysisSettings = some (.number ↑(event :: rest).length) := by
    simp only [settingsEvents,listed]
  have length : (eventIds analysisSettings).length = some (event :: rest).length := by rw [listed,Json.length]
  constructor
  · rintro ⟨events,same,counted⟩
    obtain rfl := Option.some.inj (stood.symm.trans same)
    obtain ⟨count,selected,chosen,sameLength,rule⟩ := (getNumEvents_ok files).mp counted
    obtain rfl := Option.some.inj (sameLength.symm.trans length)
    refine ⟨selected,chosen,?_⟩
    rintro rfl
    simpa using rule
  · rintro ⟨selected,chosen,single⟩
    refine ⟨_,stood,(getNumEvents_ok files).mpr ⟨_,selected,chosen,length,?_⟩⟩
    cases rest with
    | nil => simpa using single rfl
    | cons other rest => simp

/-- On valid settings the events are counted, to the number that the settings stand for,
    exactly where they are `Countable`. -/
theorem events_counted_iff (files : SettingsFiles ctx model analysis modelSettings analysisSettings)
    (valid : validateLossGeneration ctx model analysis .v2 [] = some []) :
    (∃ events, settingsEvents modelSettings analysisSettings = some events ∧
      getNumEvents ctx model analysis = .ok (some events)) ↔ Countable modelSettings analysisSettings := by
  unfold Countable
  cases ids : eventIds analysisSettings with
  | array events =>
    cases events with
    | nil => exact set_counted_iff files valid (by rw [ids]; rfl) (fun _ => by rw [ids]; rfl) (by simp [ids])
    | cons event rest =>
      rw [ids_counted_iff files ids]
      cases rest with
      | nil => simp
      | cons other rest => simp
  | string text =>
    refine set_counted_iff files valid (by rw [ids]; rfl) (fun empty => ?_) (by simp [ids])
    rw [ids]
    simpa [Json.truthy] using String.length_eq_zero_iff.mp empty
  | object fields =>
    refine set_counted_iff files valid (by rw [ids]; rfl) (fun empty => ?_) (by simp [ids])
    rw [ids]
    simpa [Json.truthy] using List.length_eq_zero_iff.mp empty
  | _ =>
    constructor
    · rintro ⟨events,_,counted⟩
      obtain ⟨count,_,_,length,_⟩ := (getNumEvents_ok files).mp counted
      rw [ids] at length
      cases length
    · rintro ⟨_,_,uncountable⟩
      cases uncountable

end Files

def setSettings : Json :=
  .object [("model_settings",.object [("event_set",.object
    [("options",.array [.object [("id",.string "p"),("number_of_events",.number 25)]])])])]

def setModel : AnalysisModel :=
  { id := 1, runMode := some .v2, resourceFile := some 5, chunkingOptions := { lossStrategy := .dynamicChunks } }

def setContext (analysisSettings : Json) : StartContext where
  model := some setModel
  portfolio := {}
  locationFileLen := .ok 10
  readJson := fun file => if file = 5 then some setSettings else some analysisSettings
  str := fun _ => ""

def setAnalysis : Analysis := load (Function.update newAnalysis .settingsFile (some 7))

theorem setFiles (analysisSettings : Json) :
    SettingsFiles (setContext analysisSettings) setModel setAnalysis setSettings analysisSettings :=
  ⟨rfl,rfl,rfl⟩

/-- The analysis settings that select the event set. -/
def selection : Json := .object [("model_settings",.object [("event_set",.string "p")])]

/-- Analysis settings with one event of the event set. -/
def singleEvent : Json := .object [("event_ids",.array [.number 7]),("model_settings",.object [("event_set",.string "p")])]

theorem selection_counted : ∃ events, settingsEvents setSettings selection = some events ∧
    getNumEvents (setContext selection) setModel setAnalysis = .ok (some events) := by
  refine (events_counted_iff (setFiles selection) rfl).mpr ⟨.string "p",rfl,_,⟨rfl,?_⟩,rfl⟩
  decide

/-- One event is counted as the events of the event set. -/
theorem singleEvent_miscounted :
    validateLossGeneration (setContext singleEvent) setModel setAnalysis .v2 [] = some [] ∧
      getNumEvents (setContext singleEvent) setModel setAnalysis = .ok (some (.number 25)) ∧
      ¬ ∃ events, settingsEvents setSettings singleEvent = some events ∧
        getNumEvents (setContext singleEvent) setModel setAnalysis = .ok (some events) := by
  have counted : getNumEvents (setContext singleEvent) setModel setAnalysis = .ok (some (.number 25)) := rfl
  have stood : settingsEvents setSettings singleEvent = some (.number 1) := rfl
  refine ⟨rfl,counted,?_⟩
  rintro ⟨events,one,all⟩
  cases one.symm.trans stood
  cases counted.symm.trans all

end OasisPlatform.EventCounts
