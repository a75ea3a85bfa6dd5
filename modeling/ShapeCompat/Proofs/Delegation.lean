import ShapeCompat.Proofs.Building

/-!
Delegation from overload to overload. Each hands the next newer one what it takes, until the newest
makes the builder. The invariant of the way is that a field which the called version does not reach
travels as its literal, from whichever overload adds it.
-/

namespace ShapeCompat

/-- What a call brings to the concrete builder. -/
structure Arrival where
  args : List String
  /-- The tier of the first entry on the way that takes a callback. -/
  tier : Option Tier
  callback : List SetCall

/-- The way of a call up to the concrete builder, for at most so many entries. -/
def Construction.arrive (construction : Construction) :
    Nat → Constructible.PendingCall → Except CallFault Arrival
  | 0, _ => .error .delegationCycle
  | fuel + 1, call => do
      let (entry, tier) ← Constructible.enter construction call
      let bindings := Bindings.ofLists (entry.params.map (·.name)) call.args
      let args ← entry.delegation.args.mapM (Argument.evaluate bindings)
      let callback := entry.delegation.callback.apply call.callback
      match entry.delegation.target with
      | .overload version variant =>
          construction.arrive fuel ⟨version, variant, args, callback, tier⟩
      | .concreteBuilder => return ⟨args, tier, callback⟩

/-- Following a call is going its way and then building from what it brings. -/
theorem Constructible.follow_eq_arrive (callee : Constructible) (fuel : Nat)
    (call : Constructible.PendingCall) :
    callee.follow fuel call = (callee.construction.arrive fuel call).bind fun arrival =>
      callee.build arrival.args (arrival.tier.getD .full) arrival.callback [] := by
  induction fuel generalizing call with
  | zero => rfl
  | succ fuel induction =>
      rw [follow, Construction.arrive]
      dsimp only [bind, Except.bind]
      cases enter callee.construction call with
      | error fault => rfl
      | ok entered =>
          obtain ⟨entry, tier⟩ := entered
          dsimp only
          cases entry.delegation.args.mapM
              (Argument.evaluate (Bindings.ofLists (entry.params.map (·.name)) call.args)) with
          | error fault => rfl
          | ok args =>
              dsimp only
              cases entry.delegation.target with
              | concreteBuilder => rfl
              | overload version variant => exact induction _

/-- What a call of `version` supplies for a field: its argument, or the literal of a field that only
later versions take. -/
def Field.supplied (field : Field) (version : UInt32) (value : Field → String) : String :=
  if field.watermark ≤ version then value field else field.literal

namespace Shape

variable {shape : Shape} {style : Style} {version next : UInt32} {newer : Option UInt32}

theorem entry_param_names (shape : Shape) (version : UInt32) (newer : Option UInt32) :
    (shape.entryParams version newer).map (·.name) = (shape.fieldsUpTo version).map (·.name) := by
  rw [entryParams, List.map_map]
  rfl

theorem bound_param (sound : shape.IsSound) (newer : Option UInt32) (value : Field → String)
    {field : Field} (present : field ∈ shape.fieldsUpTo version) :
    (Argument.param field.name).evaluate (Bindings.ofLists
      ((shape.entryParams version newer).map (·.name)) ((shape.fieldsUpTo version).map value)) =
        .ok (value field) := by
  rw [entry_param_names]
  exact Bindings.find_of_lists _ (names_up_to_distinct sound version) value present

theorem own_args (sound : shape.IsSound) (version : UInt32) (newer : Option UInt32)
    (value : Field → String) :
    ((shape.fieldsUpTo version).map fun field => Argument.param field.name).mapM
      (Argument.evaluate (Bindings.ofLists
        ((shape.entryParams version newer).map (·.name))
        ((shape.fieldsUpTo version).map value))) =
      .ok ((shape.fieldsUpTo version).map value) := by
  rw [List.mapM_map]
  apply map_m_ok
  intro field present
  exact bound_param sound newer value present

/-- One hop: what an overload hands to the next newer one are the arguments that this one takes. -/
theorem forwarded_args (sound : shape.IsSound) (stage : shape.IsStage version (some next))
    (value : Field → String) :
    ((shape.overloadAt version (some next)).slots.map Slot.forwarded).mapM
      (Argument.evaluate (Bindings.ofLists
        ((shape.entryParams version (some next)).map (·.name))
        ((shape.fieldsUpTo version).map value))) =
      .ok ((shape.fieldsUpTo next).map (·.supplied version value)) := by
  rw [slots_followed stage, List.map_map, List.mapM_map]
  apply map_m_ok
  intro field present
  obtain ⟨relevant, bound⟩ := mem_fields_up_to.mp present
  cases stage with
  | followed _ later reached between =>
      by_cases before : field.watermark ≤ version
      · have different : some field.watermark ≠ some next := by
          intro same
          rw [Option.some.injEq] at same
          exact UInt32.not_lt.mpr before (same ▸ later)
        have passed : (field.slot (some next)).forwarded = .param field.name := by
          unfold Slot.forwarded Field.slot Field.slotKind
          rw [if_neg different]
          split_ifs <;> rfl
        have evaluated := bound_param sound (some next) value
          (mem_fields_up_to.mpr ⟨relevant, before⟩)
        simp only [Function.comp_apply, passed, evaluated, Field.supplied, before, if_true]
      · have same : field.watermark = next :=
          UInt32.le_antisymm bound ((between field relevant).resolve_left before)
        have passed : (field.slot (some next)).forwarded = .literal field.literal := by
          unfold Slot.forwarded Field.slot Field.slotKind
          rw [if_pos (by rw [same])]
        simp only [Function.comp_apply, passed, Argument.evaluate, Field.supplied, before, if_false]

/-- The last hop: the newest overload hands the builder its own arguments. -/
theorem resolved_args (sound : shape.IsSound) (stage : shape.IsStage version none)
    (value : Field → String) :
    ((shape.overloadAt version none).resolved.map (·.value)).mapM
      (Argument.evaluate (Bindings.ofLists
        ((shape.entryParams version none).map (·.name))
        ((shape.fieldsUpTo version).map value))) =
      .ok (shape.relevantFields.map (·.supplied version value)) := by
  rw [resolved_newest stage, List.mapM_map]
  apply map_m_ok
  intro field relevant
  have present : field ∈ shape.fieldsUpTo version := by
    rw [fields_up_to_newest stage]
    exact relevant
  have bound := (mem_fields_up_to.mp present).2
  rw [Function.comp_apply, bound_param sound none value present, Field.supplied, if_pos bound]

theorem variants_distinct (shape : Shape) (style : Style) (version : UInt32)
    (newer : Option UInt32) : ((shape.entriesAt style version newer).map (·.variant)).Nodup := by
  unfold entriesAt
  split_ifs with bare optional paired
  · decide
  · decide
  · simp [defaultedEntry, mainEntry, mainVariant, paired.1]
  · simp

end Shape

namespace Constructible

variable {callee : Constructible} {shape : Shape} {style : Style}

theorem overload_found (source : callee.IsFor shape style) (sound : shape.IsSound)
    {version : UInt32} {newer : Option UInt32} (stage : (version, newer) ∈ withNewer shape.versions) :
    callee.construction.overload? version = some (shape.plannedOverload style version newer) := by
  have distinct : (((withNewer shape.versions).map fun stage =>
      shape.plannedOverload style stage.1 stage.2).map (·.version)).Nodup := by
    rw [List.map_map]
    change ((withNewer shape.versions).map (·.1)).Nodup
    rw [with_newer_versions]
    exact shape.versions_ascending.imp fun less => (UInt32.ne_of_lt less)
  rw [Construction.overload?, source.overloads, Shape.attach_entries_eq sound]
  exact find_of_distinct (·.version) _ distinct
    (List.mem_map_of_mem (f := fun stage => shape.plannedOverload style stage.1 stage.2) stage)

theorem entry_found {version : UInt32} {newer : Option UInt32} {entry : EntryPoint}
    (member : entry ∈ shape.entriesAt style version newer) :
    (shape.plannedOverload style version newer).entryFor entry.variant = some entry :=
  find_of_distinct EntryPoint.variant _ (shape.variants_distinct style version newer) member

/-- A call that an entry accepts goes on with the arguments of the entry's delegation. -/
theorem arrive_entry (source : callee.IsFor shape style) (sound : shape.IsSound)
    {version : UInt32} {newer : Option UInt32} (stage : (version, newer) ∈ withNewer shape.versions)
    {entry : EntryPoint} (member : entry ∈ shape.entriesAt style version newer)
    (args : List String) (lengths : args.length = entry.params.length) (callback : List SetCall)
    (tier : Option Tier) (accepted : tier.or entry.callback = none → callback = [])
    {passed : List String}
    (bound : entry.delegation.args.mapM
      (Argument.evaluate (Bindings.ofLists (entry.params.map (·.name)) args)) = .ok passed)
    (fuel : Nat) :
    callee.construction.arrive (fuel + 1) ⟨version, entry.variant, args, callback, tier⟩ =
      match entry.delegation.target with
      | .overload target variant =>
          callee.construction.arrive fuel ⟨target, variant, passed,
            entry.delegation.callback.apply callback, tier.or entry.callback⟩
      | .concreteBuilder =>
          .ok ⟨passed, tier.or entry.callback, entry.delegation.callback.apply callback⟩ := by
  have entered : enter callee.construction ⟨version, entry.variant, args, callback, tier⟩ =
      .ok (entry, tier.or entry.callback) := by
    unfold enter
    dsimp only
    rw [overload_found source sound stage, Option.bind_some, entry_found member]
    dsimp only
    rw [if_neg (not_not.mpr lengths), if_neg fun refused => refused.2 (accepted refused.1)]
    rfl
  rw [Construction.arrive]
  dsimp only [bind, Except.bind]
  rw [entered]
  dsimp only
  rewrite [bound]
  rfl

/-- The callback travels unchanged from main entry to main entry. -/
theorem main_entry_passes (callback : List SetCall) (version : UInt32) (newer : Option UInt32)
    (accepted : shape.hasOptionalTier = false → callback = []) :
    (shape.mainEntry version newer).delegation.callback.apply callback = callback := by
  have passed : (shape.mainEntry version newer).delegation.callback =
      if shape.hasOptionalTier then .forwarded else .withheld := by
    cases newer <;> rfl
  rw [passed]
  cases optional : shape.hasOptionalTier with
  | false => exact (accepted optional).symm
  | true => rfl

theorem main_entry_accepts (callback : List SetCall) (tier : Option Tier) (version : UInt32)
    (newer : Option UInt32) (accepted : shape.hasOptionalTier = false → callback = [])
    (refused : tier.or (shape.mainEntry version newer).callback = none) : callback = [] := by
  cases optional : shape.hasOptionalTier with
  | false => exact accepted optional
  | true => simp [Shape.mainEntry, optional] at refused

/-- From the main entry of any version a call brings the builder the arguments for the fields that
the version takes, literals for the others, and its callback. -/
theorem arrive_main (source : callee.IsFor shape style) (sound : shape.IsSound)
    (taken : shape.relevantFields ≠ []) (callback : List SetCall)
    (accepted : shape.hasOptionalTier = false → callback = []) (earlier later : List UInt32)
    (version : UInt32) (versions : shape.versions = earlier ++ version :: later)
    (value : Field → String) (tier : Option Tier) (fuel : Nat) (enough : later.length < fuel) :
    callee.construction.arrive fuel
        ⟨version, shape.mainVariant, (shape.fieldsUpTo version).map value, callback, tier⟩ =
      .ok ⟨shape.relevantFields.map (·.supplied version value),
        tier.or (if shape.hasOptionalTier then some .optional else none), callback⟩ := by
  -- Induction on the versions that are still to come; each hop uses up one unit of fuel.
  induction later generalizing earlier version value tier fuel with
  | nil =>
      obtain ⟨fuel, rfl⟩ := Nat.exists_eq_succ_of_ne_zero (Nat.ne_of_gt enough)
      have member : (version, none) ∈ withNewer shape.versions :=
        mem_with_newer.mpr ⟨earlier, [], versions, rfl⟩
      have stage := Shape.stage_of_mem sound member
      have hop := arrive_entry source sound member (Shape.main_entry_mem taken)
        ((shape.fieldsUpTo version).map value) (by simp [Shape.mainEntry, Shape.entryParams])
        callback tier (main_entry_accepts callback tier version none accepted)
        (Shape.resolved_args sound stage value) fuel
      apply hop.trans
      rw [main_entry_passes callback version none accepted]
      rfl
  | cons next beyond induction =>
      obtain ⟨fuel, rfl⟩ := Nat.exists_eq_succ_of_ne_zero (Nat.ne_of_gt (Nat.zero_lt_of_lt enough))
      have member : (version, some next) ∈ withNewer shape.versions :=
        mem_with_newer.mpr ⟨earlier, next :: beyond, versions, rfl⟩
      have stage := Shape.stage_of_mem sound member
      have hop := arrive_entry source sound member (Shape.main_entry_mem taken)
        ((shape.fieldsUpTo version).map value) (by simp [Shape.mainEntry, Shape.entryParams])
        callback tier (main_entry_accepts callback tier version (some next) accepted)
        (Shape.forwarded_args sound stage value) fuel
      apply hop.trans
      rw [main_entry_passes callback version (some next) accepted]
      have rest := induction (earlier ++ [version]) next (by simp [versions])
        (·.supplied version value) (tier.or (shape.mainEntry version (some next)).callback) fuel
        (by simp at enough; omega)
      apply rest.trans
      have supplied : shape.relevantFields.map (·.supplied next (·.supplied version value)) =
          shape.relevantFields.map (·.supplied version value) := by
        apply List.map_congr_left
        intro field relevant
        cases stage with
        | followed _ larger reached between =>
            unfold Field.supplied
            by_cases before : field.watermark ≤ version
            · have bound := UInt32.le_trans before (UInt32.le_of_lt larger)
              simp only [before, bound, if_true]
            · simp only [before, if_false, ite_self]
      have tiers : (tier.or (shape.mainEntry version (some next)).callback).or
          (if shape.hasOptionalTier then some .optional else none) =
            tier.or (if shape.hasOptionalTier then some .optional else none) := by
        rw [Shape.mainEntry, Option.or_assoc, Option.or_self]
      rw [supplied, tiers]

end Constructible

end ShapeCompat
