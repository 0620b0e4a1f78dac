import Mathlib.Algebra.Order.Ring.Int

/-!
A limited supply that is handed out in order. Each claimant gets what it demands, or what the
ones before it leave of the limit. One that is to get nothing but still runs counts with what
it runs with, since it is stopped later. When the claimants run with what a round gave them,
the next round counts everyone with what it gives (`next_calm`); what they run with after it is
handed out as if nobody had run before (`steady_greedy`), and the rounds after it change
nothing (`next_steady`).
-/
namespace OasisPlatform.Rationing
set_option linter.unusedSimpArgs false

structure Claimant where
  running : Nat
  demand : Nat

/-- What a claimant gets when some of the limit is used. -/
def share (limit : Option Int) (used : Int) (demand : Nat) : Int :=
  limit.elim (demand : Int) fun limit => min (demand : Int) (limit - used)

/-- What a claimant counts for. -/
def counted (running : Nat) (share : Int) : Int :=
  if (running : Int) ≠ share ∧ ¬ 0 < share then running else share

/-- What is handed out when everyone counts for what it gets. -/
def greedy (limit : Option Int) : Int → List Nat → List Int
  | _,[] => []
  | used,demand :: rest =>
    let given := share limit used demand
    given :: greedy limit (used + given) rest

/-- A claimant that runs with what it got. -/
def Claimant.settled (claimant : Claimant) (given : Int) : Claimant := ⟨given.toNat,claimant.demand⟩

/-- The claimants of the next round: each of them settled, and none without demand need come
    back. -/
inductive Next (limit : Option Int) : Int → List Claimant → List Claimant → Prop where
  | nil (used : Int) : Next limit used [] []
  | keep {used : Int} {claimant : Claimant} {rest later : List Claimant}
      (next : Next limit (used + counted claimant.running (share limit used claimant.demand)) rest later) :
      Next limit used (claimant :: rest) (claimant.settled (share limit used claimant.demand) :: later)
  | leave {used : Int} {claimant : Claimant} {rest later : List Claimant} (idle : claimant.demand = 0)
      (next : Next limit (used + counted claimant.running (share limit used claimant.demand)) rest later) :
      Next limit used (claimant :: rest) later

/-- No more than the limit is used. -/
def Within (limit : Option Int) (used : Int) : Prop := ∀ l, limit = some l → used ≤ l

section
variable {limit : Option Int}

theorem share_le (limit : Option Int) (used : Int) (demand : Nat) : share limit used demand ≤ demand := by
  cases limit <;> simp [share]

theorem share_nonneg {used : Int} (within : Within limit used) (demand : Nat) : 0 ≤ share limit used demand := by
  cases limit with
  | none => simp [share]
  | some l =>
    have most := within l rfl
    simp only [share,Option.elim_some]
    omega

theorem share_within {used : Int} (within : Within limit used) (demand : Nat) :
    Within limit (used + share limit used demand) := by
  rintro l rfl
  have most := within l rfl
  simp only [share,Option.elim_some]
  omega

/-- Less use leaves more, and together no more. -/
theorem share_mono (limit : Option Int) {used more : Int} (less : used ≤ more) (demand : Nat) :
    share limit more demand ≤ share limit used demand ∧
      used + share limit used demand ≤ more + share limit more demand := by
  cases limit with
  | none => simpa [share] using less
  | some l =>
    simp only [share,Option.elim_some]
    omega

theorem share_zero {used : Int} (within : Within limit used) : share limit used 0 = 0 := by
  have least := share_nonneg within 0
  have most := share_le limit used 0
  omega

theorem counted_nonneg (running : Nat) (given : Int) : 0 ≤ counted running given := by
  unfold counted
  split_ifs with stops <;> omega

theorem le_counted (running : Nat) (given : Int) : given ≤ counted running given := by
  unfold counted
  split_ifs with stops <;> omega

theorem counted_settled {given later : Int} (nonneg : 0 ≤ later) (grows : given ≤ later) :
    counted given.toNat later = later := by
  unfold counted
  split_ifs with stops <;> omega

/-- A round in which everyone counts for what it gets. -/
def Calm (limit : Option Int) : Int → List Claimant → Prop
  | _,[] => True
  | used,claimant :: rest =>
    counted claimant.running (share limit used claimant.demand) = share limit used claimant.demand ∧
      Calm limit (used + share limit used claimant.demand) rest

/-- What was used in the round before, those that were about to stop included, is more than
    what is used now: everyone gets at least as much as before. -/
theorem next_calm {used before : Int} {claimants later : List Claimant} (next : Next limit before claimants later)
    (less : used ≤ before) (within : Within limit used) : Calm limit used later := by
  induction next generalizing used with
  | nil => trivial
  | @keep before claimant rest later _ ih =>
    obtain ⟨grows,together⟩ := share_mono limit less claimant.demand
    have counts := le_counted claimant.running (share limit before claimant.demand)
    refine ⟨counted_settled (share_nonneg within claimant.demand) grows,ih ?_ (share_within within claimant.demand)⟩
    show used + share limit used claimant.demand ≤ _
    omega
  | @leave before claimant rest later idle _ ih =>
    have counts := counted_nonneg claimant.running (share limit before claimant.demand)
    exact ih (by omega) within

/-- Everyone runs with what it gets. -/
def Steady (limit : Option Int) : Int → List Claimant → Prop
  | _,[] => True
  | used,claimant :: rest =>
    (claimant.running : Int) = share limit used claimant.demand ∧
      Steady limit (used + share limit used claimant.demand) rest

theorem next_steady {used : Int} {claimants later : List Claimant} (next : Next limit used claimants later)
    (calm : Calm limit used claimants) (within : Within limit used) : Steady limit used later := by
  induction next with
  | nil => trivial
  | @keep used claimant rest later _ ih =>
    obtain ⟨here,rest⟩ := calm
    have nonneg := share_nonneg within claimant.demand
    rw [here] at ih
    exact ⟨Int.toNat_of_nonneg nonneg,ih rest (share_within within claimant.demand)⟩
  | @leave used claimant rest later idle _ ih =>
    obtain ⟨here,rest⟩ := calm
    rw [here] at ih
    rw [idle,share_zero within,add_zero] at ih rest
    exact ih rest within

theorem steady_greedy {used : Int} {claimants : List Claimant} (steady : Steady limit used claimants) :
    claimants.map (fun claimant => (claimant.running : Int)) = greedy limit used (claimants.map Claimant.demand) := by
  induction claimants generalizing used with
  | nil => rfl
  | cons claimant rest ih =>
    obtain ⟨here,later⟩ := steady
    simp only [List.map_cons,greedy,here,ih later]

/-- No more than the limit is handed out. -/
theorem greedy_within {used : Int} (within : Within limit used) (demands : List Nat) :
    Within limit (used + (greedy limit used demands).sum) := by
  induction demands generalizing used with
  | nil => simpa [greedy] using within
  | cons demand rest ih =>
    have later := ih (share_within within demand)
    simpa only [greedy,List.sum_cons,add_assoc] using later

end

end OasisPlatform.Rationing
