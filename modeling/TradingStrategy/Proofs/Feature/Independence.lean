import TradingStrategy.Proofs.Feature.Locality
import TradingStrategy.Proofs.Feature.Plan

/-!
The values of a feature do not depend on what else is computed.

Owns:
- `Arranged`: features in an order in which each stands behind all that it reads, as those of every plan do;
- `Computes`: the same of one feature, among others that may stand in any order;
- `Solves`: the snapshot of a bar as the solution of one equation per feature, which the order does not enter;
- `Matches.snapshots`: two pipelines over the same bars agree on all features that they share;
- `default_independent`: so do any two plans of the default catalogue.
-/

namespace TradingStrategy

namespace Pipeline

variable {registry : Registry} {reach : Nat} {bar : Bar}

/-! ### Arranged features -/

/-- Features that are not builtin, have distinct names, and stand behind those that they declare. -/
inductive Arranged : List Feature → Prop where
  | nil : Arranged []
  | snoc {steps : List Feature} {feature : Feature} (arranged : Arranged steps)
      (computed : isBuiltin feature.name = false) (fresh : feature.name ∉ steps.map Feature.name)
      (behind : ∀ dependency ∈ feature.dependencies,
        isBuiltin dependency = true ∨ dependency ∈ steps.map Feature.name) :
      Arranged (steps ++ [feature])

theorem Arranged.closed {steps : List Feature} (arranged : Arranged steps) {feature : Feature}
    (member : feature ∈ steps) : ∀ dependency ∈ feature.dependencies,
      isBuiltin dependency = true ∨ dependency ∈ steps.map Feature.name := by
  induction arranged with
  | nil => contradiction
  | @snoc steps last _ _ _ behind inductionHypothesis =>
    intro dependency declared
    rw [List.map_append, List.mem_append]
    rcases List.mem_append.mp member with earlier | isLast
    · exact (inductionHypothesis earlier dependency declared).imp_right .inl
    · rw [List.mem_singleton.mp isLast] at declared
      exact (behind dependency declared).imp_right .inl

theorem Arranged.computed {steps : List Feature} (arranged : Arranged steps) {feature : Feature}
    (member : feature ∈ steps) : isBuiltin feature.name = false := by
  induction arranged with
  | nil => contradiction
  | snoc _ computed _ _ inductionHypothesis =>
    rcases List.mem_append.mp member with earlier | isLast
    · exact inductionHypothesis earlier
    · rwa [List.mem_singleton.mp isLast]

/-- A feature stands behind all that it reads, and none from it on writes what it reads, or its own name once more. -/
def Computes (steps : List Feature) (feature : Feature) : Prop :=
  ∃ before after, steps = before ++ feature :: after ∧ feature.name ∉ after.map Feature.name ∧
    ∀ dependency ∈ feature.dependencies, dependency ∉ (feature :: after).map Feature.name

theorem Arranged.computes {steps : List Feature} (arranged : Arranged steps) {feature : Feature}
    (member : feature ∈ steps) : Computes steps feature := by
  induction arranged with
  | nil => contradiction
  | @snoc steps last arranged computed fresh behind inductionHypothesis =>
    -- A name that is builtin or was written before the last feature is not the name of the last one.
    have other : ∀ name, isBuiltin name = true ∨ name ∈ steps.map Feature.name → name ≠ last.name := by
      rintro name (builtin | among) rfl
      · rw [computed] at builtin
        contradiction
      · exact fresh among
    rcases List.mem_append.mp member with earlier | isLast
    · obtain ⟨before, after, split, kept, read⟩ := inductionHypothesis earlier
      refine ⟨before, after ++ [last], by rw [split, List.append_assoc, List.cons_append], ?_, ?_⟩
      · have notLast := other feature.name (.inr (List.mem_map_of_mem earlier))
        simp only [List.map_append, List.mem_append, kept, List.map_singleton, List.mem_singleton, notLast, or_self,
          not_false_eq_true]
      · intro dependency declared
        have notLast := other dependency (arranged.closed earlier dependency declared)
        have notRead := read dependency declared
        rw [← List.cons_append, List.map_append, List.mem_append, List.map_singleton, List.mem_singleton]
        exact not_or.mpr ⟨notRead, notLast⟩
    · obtain rfl := List.mem_singleton.mp isLast
      refine ⟨steps, [], rfl, List.not_mem_nil, ?_⟩
      intro dependency declared
      simpa using other dependency (behind dependency declared)

/-- Features of a registry in an order in which they can be computed. -/
structure Ready (registry : Registry) (steps : List Feature) : Prop where
  arranged : Arranged steps
  registered : ∀ feature ∈ steps, registry.get? feature.name = some feature

theorem Ready.mem_features {steps : List Feature} (ready : Ready registry steps) {feature : Feature}
    (member : feature ∈ steps) : feature ∈ registry.features :=
  (Registry.get?_name (ready.registered feature member)).2

theorem Ready.same {steps others : List Feature} (ready : Ready registry steps) (otherReady : Ready registry others)
    {feature other : Feature} (member : feature ∈ steps) (otherMember : other ∈ others)
    (named : feature.name = other.name) : feature = other := by
  have found := ready.registered feature member
  rw [named, otherReady.registered other otherMember] at found
  exact (Option.some.inj found).symm

/-- Features that the entries of an order are bound to, except for those entries that are taken from the bar. -/
structure BindsTo (registry : Registry) (order : List FeatureDescriptor) (steps : List Feature) : Prop where
  bound : (order.filter fun entry => !isTaken entry).mapM (bind registry) = .ok steps
  ready : Ready registry steps
  inOrder : ∀ feature ∈ steps, feature.name ∈ Registry.namesOf order
  covered : ∀ name ∈ Registry.namesOf order, isBuiltin name = true ∨ name ∈ steps.map Feature.name

section Snoc

variable {order : List FeatureDescriptor} {entry : FeatureDescriptor} {steps : List Feature}
  (bindsTo : BindsTo registry order steps) (described : registry.describe? entry.name = some entry)
include bindsTo described

theorem BindsTo.taken (builtin : isBuiltin entry.name = true) : BindsTo registry (order ++ [entry]) steps where
  bound := by
    have taken : isTaken entry = true := by
      rw [Registry.describe?_builtin builtin] at described
      rw [← Option.some.inj described, isTaken, builtin]
      rfl
    rw [List.filter_append, List.filter_cons_of_neg (by simp [taken]), List.filter_nil, List.append_nil, bindsTo.bound]
  ready := bindsTo.ready
  inOrder feature member := Registry.mem_namesOf_snoc.mpr (.inl (bindsTo.inOrder feature member))
  covered name member := by
    rcases Registry.mem_namesOf_snoc.mp member with earlier | rfl
    · exact bindsTo.covered name earlier
    · exact .inl builtin

theorem BindsTo.computed (notBuiltin : isBuiltin entry.name = false) (fresh : entry.name ∉ Registry.namesOf order)
    (behind : ∀ dependency ∈ entry.dependencies, dependency ∈ Registry.namesOf order) :
    ∃ feature, BindsTo registry (order ++ [entry]) (steps ++ [feature]) := by
  rw [Registry.describe?, if_neg (by simp [notBuiltin])] at described
  obtain ⟨feature, found, isEntry⟩ := Option.map_eq_some_iff.mp described
  have named := (Registry.get?_name found).1
  have declared : feature.dependencies = entry.dependencies := by rw [← isEntry]
  refine ⟨feature, ?_, ⟨.snoc bindsTo.ready.arranged ?_ ?_ ?_, ?_⟩, ?_, ?_⟩
  · have notTaken : isTaken entry = false := by simp [isTaken, notBuiltin]
    rw [List.filter_append, List.filter_cons_of_pos (by simp [notTaken]), List.filter_nil, List.mapM_append,
      bindsTo.bound, List.mapM_cons, bind, found]
    rfl
  · rwa [named]
  · intro member
    obtain ⟨earlier, among, same⟩ := List.mem_map.mp member
    exact fresh (named ▸ same ▸ bindsTo.inOrder earlier among)
  · intro dependency listed
    exact bindsTo.covered dependency (behind dependency (declared ▸ listed))
  · intro other member
    rcases List.mem_append.mp member with earlier | last
    · exact bindsTo.ready.registered other earlier
    · rw [List.mem_singleton.mp last, named, found]
  · intro other member
    apply Registry.mem_namesOf_snoc.mpr
    rcases List.mem_append.mp member with earlier | last
    · exact .inl (bindsTo.inOrder other earlier)
    · exact .inr (List.mem_singleton.mp last ▸ named)
  · intro name member
    rw [List.map_append, List.mem_append]
    rcases Registry.mem_namesOf_snoc.mp member with earlier | rfl
    · exact (bindsTo.covered name earlier).imp_right .inl
    · exact .inr (.inr (named ▸ List.mem_cons_self))

end Snoc

theorem settled_binds {order : List FeatureDescriptor} (settled : registry.Settled order) :
    ∃ steps, BindsTo registry order steps := by
  induction settled with
  | nil => exact ⟨[], rfl, ⟨.nil, by simp⟩, by simp, by simp [Registry.namesOf]⟩
  | @snoc order entry settled described fresh behind inductionHypothesis =>
    obtain ⟨steps, bindsTo⟩ := inductionHypothesis
    cases builtin : isBuiltin entry.name with
    | true => exact ⟨steps, bindsTo.taken described builtin⟩
    | false =>
      obtain ⟨feature, extended⟩ := bindsTo.computed described builtin fresh behind
      exact ⟨steps ++ [feature], extended⟩

/-! ### The equations of a snapshot -/

/-- A snapshot with the builtin values of its bar in which every feature has the value that it computes from this very
snapshot. -/
structure Solves (steps : List Feature) (bar : Bar) (past : List Snapshot) (snapshot : Snapshot) : Prop where
  time : snapshot.timestamp = bar.timestamp
  builtin : ∀ name, isBuiltin name = true → snapshot.get? name = (Snapshot.ofBar bar).get? name
  computed : ∀ feature ∈ steps, snapshot.get? feature.name = some (feature.compute ⟨snapshot, past⟩)

theorem get?_insert_same (snapshot : Snapshot) (name : String) (value : Float) :
    (snapshot.insert name value).get? name = some value :=
  valueOf?_setValue_same name value snapshot.values

theorem get?_insert_other {name other : String} (snapshot : Snapshot) (value : Float) (different : other ≠ name) :
    (snapshot.insert name value).get? other = snapshot.get? other :=
  valueOf?_setValue_other value snapshot.values different

theorem foldl_get?_other {name : String} {steps : List Feature} (past : List Snapshot)
    (unwritten : name ∉ steps.map Feature.name) (snapshot : Snapshot) :
    (steps.foldl (step past) snapshot).get? name = snapshot.get? name := by
  induction steps generalizing snapshot with
  | nil => rfl
  | cons first rest inductionHypothesis =>
    rw [List.map_cons, List.mem_cons, not_or] at unwritten
    rw [List.foldl_cons, inductionHypothesis unwritten.2]
    exact get?_insert_other snapshot _ unwritten.1

theorem foldl_timestamp (steps : List Feature) (past : List Snapshot) (snapshot : Snapshot) :
    (steps.foldl (step past) snapshot).timestamp = snapshot.timestamp := by
  induction steps generalizing snapshot with
  | nil => rfl
  | cons first rest inductionHypothesis => exact inductionHypothesis (step past snapshot first)

theorem compute_timestamp (pipeline : Pipeline) (bar : Bar) (past : List Snapshot) :
    (pipeline.compute bar past).timestamp = bar.timestamp :=
  foldl_timestamp pipeline.steps past (.ofBar bar)

/-- The builtin values are those of the bar where no feature has a builtin name. -/
theorem compute_builtin {steps : List Feature} (computed : ∀ feature ∈ steps, isBuiltin feature.name = false)
    (bar : Bar) (past : List Snapshot) {name : String} (builtin : isBuiltin name = true) :
    (compute ⟨steps⟩ bar past).get? name = (Snapshot.ofBar bar).get? name := by
  apply foldl_get?_other
  intro among
  obtain ⟨feature, member, rfl⟩ := List.mem_map.mp among
  rw [computed feature member] at builtin
  contradiction

/-- What is computed behind a feature changes nothing of what it read or gave, so in the end its equation holds. -/
theorem Computes.get?_name {steps : List Feature} {feature : Feature} (computes : Computes steps feature)
    (isLocal : feature.Local reach) (bar : Bar) (past : List Snapshot) :
    (compute ⟨steps⟩ bar past).get? feature.name = some (feature.compute ⟨compute ⟨steps⟩ bar past, past⟩) := by
  obtain ⟨before, after, rfl, kept, read⟩ := computes
  have split : compute ⟨before ++ feature :: after⟩ bar past =
      after.foldl (step past) (step past (before.foldl (step past) (.ofBar bar)) feature) := by
    rw [compute, List.foldl_append, List.foldl_cons]
  have seen : feature.compute ⟨before.foldl (step past) (.ofBar bar), past⟩ =
      feature.compute ⟨compute ⟨before ++ feature :: after⟩ bar past, past⟩ := by
    apply isLocal
    apply View.Alike.ofColumns
    · rw [compute_timestamp, foldl_timestamp]
      rfl
    · rfl
    · intro dependency declared
      rw [compute, List.foldl_append]
      exact (foldl_get?_other past (read dependency declared) _).symm
    · exact fun _ _ => rfl
  rw [← seen, split, foldl_get?_other past kept]
  exact get?_insert_same _ _ _

theorem compute_solves {steps : List Feature} (arranged : Arranged steps)
    (areLocal : ∀ feature ∈ steps, feature.Local reach) (bar : Bar) (past : List Snapshot) :
    Solves steps bar past (compute ⟨steps⟩ bar past) where
  time := compute_timestamp ⟨steps⟩ bar past
  builtin _ builtin := compute_builtin (fun _ member => arranged.computed member) bar past builtin
  computed feature member := (arranged.computes member).get?_name (areLocal feature member) bar past

/-! ### What two pipelines share -/

/-- A builtin name, or that of a feature of both lists. -/
def Shared (steps others : List Feature) (name : String) : Prop :=
  isBuiltin name = true ∨ ∃ feature ∈ steps, feature ∈ others ∧ feature.name = name

/-- Snapshots of the same bars with the same values of some names. -/
structure Matches (shared : String → Prop) (past other : List Snapshot) : Prop where
  times : past.map Snapshot.timestamp = other.map Snapshot.timestamp
  columns : ∀ name, shared name → column name past = column name other

theorem Matches.cons {shared : String → Prop} {past other : List Snapshot} (agree : Matches shared past other)
    {snapshot otherSnapshot : Snapshot} (time : snapshot.timestamp = otherSnapshot.timestamp)
    (values : ∀ name, shared name → snapshot.get? name = otherSnapshot.get? name) :
    Matches shared (snapshot :: past) (otherSnapshot :: other) where
  times := by rw [List.map_cons, List.map_cons, time, agree.times]
  columns name isShared := by
    have pastSame := agree.columns name isShared
    unfold column at pastSame ⊢
    rw [List.map_cons, List.map_cons, values name isShared, pastSame]

theorem Matches.take {shared : String → Prop} {past other : List Snapshot} (agree : Matches shared past other)
    (count : Nat) : Matches shared (past.take count) (other.take count) where
  times := by rw [List.map_take, List.map_take, agree.times]
  columns name isShared := by
    have same := agree.columns name isShared
    unfold column at same ⊢
    rw [List.map_take, List.map_take, same]

section Both

variable {steps others : List Feature} (ready : Ready registry steps) (otherReady : Ready registry others)
include ready otherReady

theorem Shared.ofNames {name : String} (known : isBuiltin name = true ∨ name ∈ steps.map Feature.name)
    (otherKnown : isBuiltin name = true ∨ name ∈ others.map Feature.name) : Shared steps others name := by
  rcases known with builtin | among
  · exact .inl builtin
  · rcases otherKnown with builtin | otherAmong
    · exact .inl builtin
    · obtain ⟨feature, member, named⟩ := List.mem_map.mp among
      obtain ⟨other, otherMember, otherNamed⟩ := List.mem_map.mp otherAmong
      have same := ready.same otherReady member otherMember (named.trans otherNamed.symm)
      exact .inr ⟨feature, member, same ▸ otherMember, named⟩

/-- What a shared feature declares is shared. -/
theorem Shared.declared {feature : Feature} (member : feature ∈ steps) (otherMember : feature ∈ others) :
    ∀ dependency ∈ feature.dependencies, Shared steps others dependency := by
  intro dependency declared
  apply Shared.ofNames ready otherReady
  · exact ready.arranged.closed member dependency declared
  · exact otherReady.arranged.closed otherMember dependency declared

variable (areLocal : ∀ feature ∈ registry.features, feature.Local reach) {past otherPast : List Snapshot}
  (agree : Matches (Shared steps others) past otherPast)
include areLocal agree

/-- The solutions for one bar agree on what is shared, by induction along the order of the first pipeline. -/
theorem Solves.get?_eq {snapshot otherSnapshot : Snapshot} (solves : Solves steps bar past snapshot)
    (otherSolves : Solves others bar otherPast otherSnapshot) {name : String} (isShared : Shared steps others name) :
    snapshot.get? name = otherSnapshot.get? name := by
  have builtinSame : ∀ name, isBuiltin name = true → snapshot.get? name = otherSnapshot.get? name := by
    intro name builtin
    rw [solves.builtin name builtin, otherSolves.builtin name builtin]
  have along : ∀ known : List Feature, Arranged known → (∀ feature ∈ known, feature ∈ steps) →
      ∀ feature ∈ known, feature ∈ others → snapshot.get? feature.name = otherSnapshot.get? feature.name := by
    intro known arranged
    induction arranged with
    | nil => simp
    | @snoc known last _ _ _ behind inductionHypothesis =>
      intro among
      have earlier := inductionHypothesis fun feature member => among feature (List.mem_append_left _ member)
      intro feature member otherMember
      rcases List.mem_append.mp member with member | isLast
      · exact earlier feature member otherMember
      · obtain rfl : feature = last := List.mem_singleton.mp isLast
        have inSteps := among feature (List.mem_append_right _ isLast)
        have declared := Shared.declared ready otherReady inSteps otherMember
        rw [solves.computed feature inSteps, otherSolves.computed feature otherMember]
        congr 1
        apply areLocal feature (ready.mem_features inSteps)
        apply View.Alike.ofColumns (solves.time.trans otherSolves.time.symm) agree.times
        · intro dependency listed
          rcases behind dependency listed with builtin | inFront
          · exact builtinSame dependency builtin
          · obtain ⟨read, readMember, rfl⟩ := List.mem_map.mp inFront
            rcases declared read.name listed with builtin | ⟨same, sameMember, sameOther, named⟩
            · exact builtinSame read.name builtin
            · have readInSteps := among read (List.mem_append_left _ readMember)
              have isSame := ready.same ready sameMember readInSteps named
              exact earlier read readMember (isSame ▸ sameOther)
        · intro dependency listed
          rcases List.mem_cons.mp listed with rfl | listed
          · exact agree.columns _ (.inr ⟨feature, inSteps, otherMember, rfl⟩)
          · exact agree.columns dependency (declared dependency listed)
  rcases isShared with builtin | ⟨feature, member, otherMember, rfl⟩
  · exact builtinSame name builtin
  · exact along steps ready.arranged (fun _ member => member) feature member otherMember

theorem compute_agree (bar : Bar) :
    (compute ⟨steps⟩ bar past).timestamp = (compute ⟨others⟩ bar otherPast).timestamp ∧
      ∀ name, Shared steps others name →
        (compute ⟨steps⟩ bar past).get? name = (compute ⟨others⟩ bar otherPast).get? name := by
  have solves := compute_solves ready.arranged (fun feature member => areLocal feature (ready.mem_features member))
    bar past
  have otherSolves := compute_solves otherReady.arranged
    (fun feature member => areLocal feature (otherReady.mem_features member)) bar otherPast
  refine ⟨solves.time.trans otherSolves.time.symm, ?_⟩
  intro name isShared
  exact solves.get?_eq ready otherReady areLocal agree otherSolves isShared

end Both

/-! ### Runs over bars -/

/-- The snapshots of bars, each computed over a history and then added to it. -/
def snapshots (pipeline : Pipeline) : History → List Bar → List Snapshot
  | _, [] => []
  | history, bar :: rest =>
      let snapshot := pipeline.compute bar history.snapshots
      snapshot :: pipeline.snapshots (history.push snapshot) rest

/-- Two pipelines whose histories agree so far go on to agree at every bar. -/
theorem Matches.snapshots {steps others : List Feature} (ready : Ready registry steps)
    (otherReady : Ready registry others) (areLocal : ∀ feature ∈ registry.features, feature.Local reach)
    {history otherHistory : History} (sameCapacity : history.capacity = otherHistory.capacity)
    (agree : Matches (Shared steps others) history.snapshots otherHistory.snapshots) (bars : List Bar) :
    Matches (Shared steps others) (Pipeline.snapshots ⟨steps⟩ history bars)
      (Pipeline.snapshots ⟨others⟩ otherHistory bars) := by
  induction bars generalizing history otherHistory with
  | nil => exact ⟨rfl, fun _ _ => rfl⟩
  | cons bar rest inductionHypothesis =>
    obtain ⟨time, values⟩ := compute_agree ready otherReady areLocal agree bar
    have pushed : Matches (Shared steps others)
        (history.push (compute ⟨steps⟩ bar history.snapshots)).snapshots
        (otherHistory.push (compute ⟨others⟩ bar otherHistory.snapshots)).snapshots := by
      rw [History.push, History.push, sameCapacity]
      exact (agree.cons time values).take otherHistory.capacity
    have stillSame : (history.push (compute ⟨steps⟩ bar history.snapshots)).capacity =
        (otherHistory.push (compute ⟨others⟩ bar otherHistory.snapshots)).capacity := sameCapacity
    exact (inductionHypothesis stillSame pushed).cons time values

theorem column_snapshots {pipeline : Pipeline} {name : String}
    (computed : isBuiltin name = true ∨ name ∈ pipeline.steps.map Feature.name) (history : History) (bars : List Bar) :
    ∃ values : List Float, column name (pipeline.snapshots history bars) = values.map some := by
  induction bars generalizing history with
  | nil => exact ⟨[], rfl⟩
  | cons bar rest inductionHypothesis =>
    have there := (compute_get? pipeline bar history.snapshots name).mpr computed
    obtain ⟨value, isValue⟩ := Option.isSome_iff_exists.mp there
    obtain ⟨values, areValues⟩ := inductionHypothesis (history.push (pipeline.compute bar history.snapshots))
    refine ⟨value :: values, ?_⟩
    rw [List.map_cons, ← areValues, ← isValue]
    rfl

/-- A resolved plan is bound to the features that the registry has under its names. -/
theorem ofPlan_ready {requested : List String} {plan : List FeatureDescriptor}
    (resolved : registry.resolvePlan requested = .ok plan) :
    ∃ steps, ofPlan plan registry = .ok ⟨steps⟩ ∧ Ready registry steps ∧
      ∀ name ∈ Registry.namesOf plan, isBuiltin name = true ∨ name ∈ steps.map Feature.name := by
  obtain ⟨steps, bindsTo⟩ := settled_binds (Registry.resolvePlan_settled resolved)
  refine ⟨steps, ?_, bindsTo.ready, bindsTo.covered⟩
  rw [ofPlan, bindsTo.bound]
  rfl

/-! ### The default catalogue -/

/-- The names of the default catalogue, each behind all that it depends on. -/
def defaultOrder : List String :=
  builtinFeatures ++
  ["true_range", "close_gain", "close_loss", "volume_sma_20", "ema_12", "ema_26", "macd_line", "macd_signal",
    "bb_middle", "vwap_pv", "vwap_volume", "rsi_2_avg_gain", "rsi_2_avg_loss", "rsi_14_avg_gain", "rsi_14_avg_loss",
    "rsi_avg_gain", "rsi_avg_loss", "atr", "atr_14", "bar_range", "bb_lower", "bb_upper", "body", "ema_20", "ema_21",
    "ema_50", "ema_9", "gap", "lower_wick", "macd_histogram", "obv", "rel_volume", "roc_10", "rsi", "rsi_14", "rsi_2",
    "sma_10", "sma_20", "sma_50", "stddev_20", "upper_wick", "vwap", "wma_20"]

theorem default_settled : ∃ order, Registry.default.Settled order ∧ Registry.namesOf order = defaultOrder := by
  have inOrder : Registry.standInOrder .default [] defaultOrder = true := by decide +kernel
  exact Registry.exists_settled .nil inOrder

theorem default_contains {name : String} : Registry.default.contains name = true ↔ name ∈ defaultOrder := by
  constructor
  · intro known
    rw [← Registry.describe?_isSome] at known
    obtain ⟨descriptor, described⟩ := Option.isSome_iff_exists.mp known
    have covered : ∀ name ∈ Registry.default.names, name ∈ defaultOrder := by decide +kernel
    exact covered name (Registry.mem_names_of_describe? described)
  · intro among
    obtain ⟨order, settled, names⟩ := default_settled
    exact (settled.sound (names ▸ among)).1

/-- Every request of known names has a plan of the default registry. -/
theorem default_plans {requested : List String} (known : ∀ name ∈ requested, Registry.default.contains name = true) :
    ∃ plan, Registry.default.resolvePlan requested = .ok plan := by
  obtain ⟨order, settled, names⟩ := default_settled
  apply Registry.resolvePlan_of_settled settled
  intro name asked
  rw [names]
  exact default_contains.mp (known name asked)

/-- For any two requests of the default registry and any feature of both plans, the two pipelines compute the same
values of the feature from the same bars, whatever the capacity of their histories. -/
theorem default_independent {requested otherRequested : List String} {plan otherPlan : List FeatureDescriptor}
    (resolved : Registry.default.resolvePlan requested = .ok plan)
    (otherResolved : Registry.default.resolvePlan otherRequested = .ok otherPlan) {name : String}
    (planned : name ∈ Registry.namesOf plan) (otherPlanned : name ∈ Registry.namesOf otherPlan) :
    ∃ pipeline other, ofPlan plan .default = .ok pipeline ∧ ofPlan otherPlan .default = .ok other ∧
      ∀ (capacity : Nat) (bars : List Bar), ∃ values : List Float,
        column name (pipeline.snapshots (.empty capacity) bars) = values.map some ∧
          column name (other.snapshots (.empty capacity) bars) = values.map some := by
  obtain ⟨steps, bound, ready, covered⟩ := ofPlan_ready resolved
  obtain ⟨others, otherBound, otherReady, otherCovered⟩ := ofPlan_ready otherResolved
  refine ⟨⟨steps⟩, ⟨others⟩, bound, otherBound, ?_⟩
  intro capacity bars
  have isShared : Shared steps others name :=
    .ofNames ready otherReady (covered name planned) (otherCovered name otherPlanned)
  have agree := Matches.snapshots ready otherReady Registry.default_local
    (show (History.empty capacity).capacity = (History.empty capacity).capacity from rfl)
    ⟨rfl, fun _ _ => rfl⟩ bars
  obtain ⟨values, areValues⟩ := column_snapshots (covered name planned) (.empty capacity) bars
  exact ⟨values, areValues, (agree.columns name isShared).symm.trans areValues⟩

/-- The relative volume is the same alone and behind the balance of volume. -/
theorem relative_volume_independent :
    ∃ plan otherPlan, Registry.default.resolvePlan ["rel_volume"] = .ok plan ∧
      Registry.default.resolvePlan ["obv", "volume_sma_20", "rel_volume"] = .ok otherPlan ∧
      "rel_volume" ∈ Registry.namesOf plan ∧ "rel_volume" ∈ Registry.namesOf otherPlan ∧
      ∃ pipeline other, ofPlan plan .default = .ok pipeline ∧ ofPlan otherPlan .default = .ok other ∧
        ∀ (capacity : Nat) (bars : List Bar), ∃ values : List Float,
          column "rel_volume" (pipeline.snapshots (.empty capacity) bars) = values.map some ∧
            column "rel_volume" (other.snapshots (.empty capacity) bars) = values.map some := by
  have known : ∀ name ∈ ["obv", "volume_sma_20", "rel_volume"], Registry.default.contains name = true := by
    intro name asked
    have listed : ∀ name ∈ ["obv", "volume_sma_20", "rel_volume"], name ∈ defaultOrder := by decide
    exact default_contains.mpr (listed name asked)
  have alone : ∀ name ∈ ["rel_volume"], Registry.default.contains name = true := by simp [known "rel_volume"]
  obtain ⟨plan, resolved⟩ := default_plans alone
  obtain ⟨otherPlan, otherResolved⟩ := default_plans known
  have planned := (Registry.resolvePlan_grows resolved).covered "rel_volume" (by simp)
  have otherPlanned := (Registry.resolvePlan_grows otherResolved).covered "rel_volume" (by simp)
  exact ⟨plan, otherPlan, resolved, otherResolved, planned, otherPlanned,
    default_independent resolved otherResolved planned otherPlanned⟩

end Pipeline

end TradingStrategy
