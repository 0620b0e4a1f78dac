import Mathlib.Data.List.Basic
import Mathlib.Data.List.Nodup

/-!
Dictionaries that keep the order of their keys, as lists of entries. A key is found at its
first entry; what an update does to one key does not show at the others (`find_upsert`), and
a fold of updates shows at each key as the fold of its own (`find_foldl_upsert`).
-/
namespace OasisPlatform.Dictionaries
set_option linter.unusedSimpArgs false

variable {κ υ : Type} [DecidableEq κ]

def keys (entries : List (κ × υ)) : List κ := entries.map Prod.fst

def find (entries : List (κ × υ)) (key : κ) : Option υ := (entries.find? fun entry => entry.1 = key).map Prod.snd

/-- Changes the value of a key in its place, or adds it at the end. -/
def upsert (entries : List (κ × υ)) (key : κ) (change : Option υ → υ) : List (κ × υ) :=
  if entries.any fun entry => entry.1 = key then
    entries.map fun entry => if entry.1 = key then (entry.1,change (some entry.2)) else entry
  else entries ++ [(key,change none)]

/-- `entries[key] = value`. -/
def put (entries : List (κ × υ)) (key : κ) (value : υ) : List (κ × υ) := upsert entries key fun _ => value

/-- `{**entries, **others}`. -/
def merge (entries others : List (κ × υ)) : List (κ × υ) :=
  others.foldl (fun merged entry => put merged entry.1 entry.2) entries

@[simp] theorem find_nil (key : κ) : find ([] : List (κ × υ)) key = none := rfl

theorem find_cons (entry : κ × υ) (entries : List (κ × υ)) (key : κ) :
    find (entry :: entries) key = if entry.1 = key then some entry.2 else find entries key := by
  unfold find
  by_cases same : entry.1 = key <;> simp [same]

theorem find_append (entries others : List (κ × υ)) (key : κ) :
    find (entries ++ others) key = (find entries key).or (find others key) := by
  induction entries with
  | nil => simp
  | cons entry rest ih =>
    rw [List.cons_append,find_cons,find_cons,ih]
    split <;> rfl

theorem find_eq_none_iff {entries : List (κ × υ)} {key : κ} : find entries key = none ↔ key ∉ keys entries := by
  induction entries with
  | nil => simp [keys]
  | cons entry rest ih =>
    rw [find_cons]
    by_cases same : entry.1 = key
    · simp [same,keys]
    · simpa [same,keys,Ne.symm same] using ih

theorem find_isSome_iff {entries : List (κ × υ)} {key : κ} : (find entries key).isSome ↔ key ∈ keys entries := by
  rw [← not_iff_not,← find_eq_none_iff]
  simp

theorem any_iff {entries : List (κ × υ)} {key : κ} :
    (entries.any fun entry => entry.1 = key) = true ↔ key ∈ keys entries := by
  simp [keys]

theorem find_map_change (entries : List (κ × υ)) (key other : κ) (change : Option υ → υ) :
    find (entries.map fun entry => if entry.1 = key then (entry.1,change (some entry.2)) else entry) other =
      if key = other then (find entries other).map fun value => change (some value) else find entries other := by
  induction entries with
  | nil => simp
  | cons entry rest ih =>
    rw [List.map_cons,find_cons,find_cons,ih]
    by_cases changed : entry.1 = key
    · subst changed
      by_cases same : entry.1 = other
      · simp [same]
      · simp [same]
    · by_cases same : entry.1 = other
      · subst same
        simp [changed,Ne.symm changed]
      · simp [changed,same]

theorem find_upsert (entries : List (κ × υ)) (key other : κ) (change : Option υ → υ) :
    find (upsert entries key change) other =
      if key = other then some (change (find entries other)) else find entries other := by
  unfold upsert
  split
  · rename_i held
    rw [find_map_change]
    by_cases same : key = other
    · subst same
      obtain ⟨value,found⟩ := Option.isSome_iff_exists.mp (find_isSome_iff.mpr (any_iff.mp held))
      simp [found]
    · simp [same]
  · rename_i absent
    rw [any_iff] at absent
    rw [find_append,find_cons]
    by_cases same : key = other
    · subst same
      simp [find_eq_none_iff.mpr absent]
    · simp [same]

theorem keys_upsert (entries : List (κ × υ)) (key : κ) (change : Option υ → υ) :
    keys (upsert entries key change) = if key ∈ keys entries then keys entries else keys entries ++ [key] := by
  unfold upsert
  by_cases held : key ∈ keys entries
  · rw [if_pos (any_iff.mpr held),if_pos held]
    unfold keys
    rw [List.map_map]
    refine List.map_congr_left fun entry _ => ?_
    by_cases same : entry.1 = key <;> simp [same]
  · rw [if_neg (mt any_iff.mp held),if_neg held]
    simp [keys]

theorem keys_upsert_nodup {entries : List (κ × υ)} (distinct : (keys entries).Nodup) (key : κ)
    (change : Option υ → υ) : (keys (upsert entries key change)).Nodup := by
  rw [keys_upsert]
  split
  · exact distinct
  · rename_i absent
    exact List.nodup_append.mpr ⟨distinct,List.nodup_singleton _,by
      rintro x listed y new rfl
      exact absent (List.mem_singleton.mp new ▸ listed)⟩

/-- A fold of updates, at one key. -/
theorem find_foldl_upsert {ι : Type} (key : ι → κ) (change : ι → Option υ → υ) (items : List ι)
    (entries : List (κ × υ)) (name : κ) :
    find (items.foldl (fun entries item => upsert entries (key item) (change item)) entries) name =
      (items.filter fun item => key item = name).foldl (fun value item => some (change item value))
        (find entries name) := by
  induction items generalizing entries with
  | nil => rfl
  | cons item rest ih =>
    rw [List.foldl_cons,ih,find_upsert]
    by_cases same : key item = name <;> simp [same]

theorem keys_foldl_upsert_nodup {ι : Type} (key : ι → κ) (change : ι → Option υ → υ) (items : List ι)
    {entries : List (κ × υ)} (distinct : (keys entries).Nodup) :
    (keys (items.foldl (fun entries item => upsert entries (key item) (change item)) entries)).Nodup := by
  induction items generalizing entries with
  | nil => exact distinct
  | cons item rest ih => exact ih (keys_upsert_nodup distinct _ _)

omit [DecidableEq κ] in
theorem keys_append (entries others : List (κ × υ)) : keys (entries ++ others) = keys entries ++ keys others :=
  List.map_append

omit [DecidableEq κ] in
theorem mem_keys {entries : List (κ × υ)} {entry : κ × υ} (member : entry ∈ entries) : entry.1 ∈ keys entries :=
  List.mem_map_of_mem member

theorem find_of_mem {entries : List (κ × υ)} (distinct : (keys entries).Nodup) {entry : κ × υ}
    (member : entry ∈ entries) : find entries entry.1 = some entry.2 := by
  induction entries with
  | nil => cases member
  | cons first rest ih =>
    obtain ⟨fresh,distinct⟩ := List.nodup_cons.mp distinct
    rw [find_cons]
    rcases List.mem_cons.mp member with rfl | later
    · rw [if_pos rfl]
    · have other : first.1 ≠ entry.1 := fun same => fresh (same ▸ mem_keys later)
      rw [if_neg other,ih distinct later]

theorem mem_of_find {entries : List (κ × υ)} {key : κ} {value : υ} (found : find entries key = some value) :
    (key,value) ∈ entries := by
  obtain ⟨entry,first,rfl⟩ := Option.map_eq_some_iff.mp found
  have same := List.find?_some first
  simp only [decide_eq_true_eq] at same
  exact same ▸ List.mem_of_find?_eq_some first

theorem find_eq_some_iff {entries : List (κ × υ)} (distinct : (keys entries).Nodup) {key : κ} {value : υ} :
    find entries key = some value ↔ (key,value) ∈ entries :=
  ⟨mem_of_find,find_of_mem distinct⟩

theorem put_held {entries : List (κ × υ)} (distinct : (keys entries).Nodup) {entry : κ × υ} (member : entry ∈ entries) :
    put entries entry.1 entry.2 = entries := by
  rw [put,upsert,if_pos (any_iff.mpr (mem_keys member))]
  refine (List.map_congr_left fun other listed => ?_).trans (List.map_id entries)
  by_cases same : other.1 = entry.1
  · have found := find_of_mem distinct listed
    rw [same,find_of_mem distinct member,Option.some.injEq] at found
    rw [if_pos same,found]
    rfl
  · rw [if_neg same,id]

theorem put_new {entries : List (κ × υ)} {key : κ} (absent : key ∉ keys entries) (value : υ) :
    put entries key value = entries ++ [(key,value)] := by
  rw [put,upsert,if_neg (mt any_iff.mp absent)]

theorem mem_put {entries : List (κ × υ)} {key : κ} {value : υ} {entry : κ × υ} (member : entry ∈ put entries key value) :
    entry = (key,value) ∨ entry ∈ entries := by
  unfold put upsert at member
  split at member
  · obtain ⟨former,listed,rfl⟩ := List.mem_map.mp member
    by_cases same : former.1 = key
    · exact .inl (by rw [if_pos same,same])
    · exact .inr (by rwa [if_neg same])
  · rcases List.mem_append.mp member with listed | added
    · exact .inr listed
    · exact .inl (List.mem_singleton.mp added)

theorem mem_merge {entries others : List (κ × υ)} {entry : κ × υ} (member : entry ∈ merge entries others) :
    entry ∈ entries ∨ entry ∈ others := by
  induction others generalizing entries with
  | nil => exact .inl member
  | cons first rest ih =>
    rcases ih member with earlier | later
    · rcases mem_put earlier with rfl | held
      · exact .inr List.mem_cons_self
      · exact .inl held
    · exact .inr (List.mem_cons_of_mem _ later)

theorem keys_merge_nodup {entries : List (κ × υ)} (distinct : (keys entries).Nodup) (others : List (κ × υ)) :
    (keys (merge entries others)).Nodup :=
  keys_foldl_upsert_nodup Prod.fst (fun entry _ => entry.2) others distinct

theorem find_put (entries : List (κ × υ)) (key other : κ) (value : υ) :
    find (put entries key value) other = if key = other then some value else find entries other :=
  find_upsert entries key other fun _ => value

theorem find_merge_absent {entries others : List (κ × υ)} {key : κ} (absent : key ∉ keys others) :
    find (merge entries others) key = find entries key := by
  induction others generalizing entries with
  | nil => rfl
  | cons first rest ih =>
    have other : first.1 ≠ key := fun same => absent (same ▸ List.mem_cons_self)
    rw [merge,List.foldl_cons]
    change find (merge (put entries first.1 first.2) rest) key = _
    rw [ih fun listed => absent (List.mem_cons_of_mem _ listed),find_put,if_neg other]

/-- A key whose assignments are all of one value. -/
theorem find_merge_only {entries others : List (κ × υ)} {key : κ} {value : υ} (member : (key,value) ∈ others)
    (only : ∀ another, (key,another) ∈ others → another = value) : find (merge entries others) key = some value := by
  induction others generalizing entries with
  | nil => cases member
  | cons first rest ih =>
    rw [merge,List.foldl_cons]
    change find (merge (put entries first.1 first.2) rest) key = _
    by_cases later : key ∈ keys rest
    · obtain ⟨entry,listed,rfl⟩ := List.mem_map.mp later
      have same := only entry.2 (List.mem_cons_of_mem _ listed)
      exact ih (same ▸ listed) fun another among => only another (List.mem_cons_of_mem _ among)
    · rw [find_merge_absent later,find_put]
      rcases List.mem_cons.mp member with rfl | among
      · exact if_pos rfl
      · exact absurd (mem_keys among) later

theorem find_merge {others : List (κ × υ)} (distinct : (keys others).Nodup) (entries : List (κ × υ)) (key : κ) :
    find (merge entries others) key = (find others key).or (find entries key) := by
  cases found : find others key with
  | none => rw [find_merge_absent (find_eq_none_iff.mp found),Option.none_or]
  | some value =>
    refine find_merge_only (mem_of_find found) fun another listed => ?_
    exact Option.some.inj ((find_of_mem distinct listed).symm.trans found)

section
variable {ω : Type} (f : υ → ω)

def mapValues (entries : List (κ × υ)) : List (κ × ω) := entries.map fun entry => (entry.1,f entry.2)

theorem find_mapValues (entries : List (κ × υ)) (key : κ) : find (mapValues f entries) key = (find entries key).map f := by
  induction entries with
  | nil => rfl
  | cons entry rest ih =>
    rw [mapValues,List.map_cons,find_cons,find_cons]
    change (if entry.1 = key then some (f entry.2) else find (mapValues f rest) key) = _
    rw [ih]
    by_cases same : entry.1 = key
    · rw [if_pos same,if_pos same]
      rfl
    · rw [if_neg same,if_neg same]

theorem put_mapValues (entries : List (κ × υ)) (key : κ) (value : υ) :
    put (mapValues f entries) key (f value) = mapValues f (put entries key value) := by
  have held : ((mapValues f entries).any fun entry => entry.1 = key) = entries.any fun entry => entry.1 = key := by
    rw [mapValues,List.any_map]
    rfl
  rw [put,upsert,held,put,upsert]
  by_cases present : (entries.any fun entry => entry.1 = key) = true
  · rw [if_pos present,if_pos present,mapValues,mapValues,List.map_map,List.map_map]
    refine List.map_congr_left fun entry _ => ?_
    by_cases same : entry.1 = key <;> simp [same]
  · rw [if_neg present,if_neg present,mapValues,mapValues,List.map_append,List.map_singleton]

theorem merge_mapValues (entries others : List (κ × υ)) :
    merge (mapValues f entries) (mapValues f others) = mapValues f (merge entries others) := by
  induction others generalizing entries with
  | nil => rfl
  | cons first rest ih =>
    change merge (put (mapValues f entries) first.1 (f first.2)) (mapValues f rest) = _
    rw [put_mapValues,ih]
    rfl

end

theorem merge_held {entries : List (κ × υ)} (distinct : (keys entries).Nodup) {others : List (κ × υ)}
    (held : ∀ entry ∈ others, entry ∈ entries) : merge entries others = entries := by
  induction others with
  | nil => rfl
  | cons entry rest ih =>
    rw [merge,List.foldl_cons,put_held distinct (held entry List.mem_cons_self)]
    exact ih fun other listed => held other (List.mem_cons_of_mem _ listed)

theorem merge_new {entries others : List (κ × υ)} (distinct : (keys (entries ++ others)).Nodup) :
    merge entries others = entries ++ others := by
  induction others generalizing entries with
  | nil => rw [List.append_nil,merge,List.foldl_nil]
  | cons entry rest ih =>
    have absent : entry.1 ∉ keys entries := by
      rw [keys_append,List.nodup_append] at distinct
      exact fun listed => distinct.2.2 _ listed _ (mem_keys List.mem_cons_self) rfl
    have grown : entries ++ entry :: rest = (entries ++ [(entry.1,entry.2)]) ++ rest := by simp
    rw [merge,List.foldl_cons,put_new absent,grown]
    exact ih (grown ▸ distinct)

/-- Entries that are there already, and new ones. -/
theorem merge_append {entries common others : List (κ × υ)} (distinct : (keys (entries ++ others)).Nodup)
    (held : ∀ entry ∈ common, entry ∈ entries) : merge entries (common ++ others) = entries ++ others := by
  have first : (keys entries).Nodup := by
    rw [keys_append] at distinct
    exact distinct.of_append_left
  rw [merge,List.foldl_append]
  change merge (merge entries common) others = _
  rw [merge_held first held,merge_new distinct]

end OasisPlatform.Dictionaries
