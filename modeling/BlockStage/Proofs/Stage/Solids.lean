/-
  The register of solids, and what it knows of the actors.

  1. **Specification (`Solids.Charted`)** — a chart says of each actor under which keys physics knows
     its body and its collider.  The register agrees with the chart if each charted body carries the
     charted collider and the owner of that collider is the actor; other colliders have no owner.

  2. **Steps** — what never moves can be put up and taken down without regard to the chart
     (`Charted.rebuild`), an actor can be entered (`Charted.addOwned`), and taking away a body strikes
     whoever has it off the chart (`Charted.remove`), so that clearing strikes off everyone
     (`Charted.clearOwned`).

  3. **The crux** — keys are given out in ascending order, so no two bodies share a collider, and
     taking away one body leaves the owners of all others.
-/
import BlockStage.Proofs.Stage.Roster

namespace BlockStage

/-! ## Charts -/

/-- Under which keys physics knows the body and the collider of each actor that has a body. -/
abbrev Chart := Handle → Option (BodyKey × ColliderKey)

/-- The chart without those who have one of the bodies. -/
def Chart.without (chart : Chart) (bodies : List BodyKey) : Chart := fun h =>
  (chart h).filter fun keys => !bodies.contains keys.1

theorem Chart.without_eq_some_iff {chart : Chart} {bodies : List BodyKey} {h : Handle}
    {b : BodyKey} {c : ColliderKey} :
    chart.without bodies h = some (b, c) ↔ chart h = some (b, c) ∧ b ∉ bodies := by
  simp [without, Option.filter_eq_some_iff]

namespace Solids

/-- The register agrees with a chart, and no key has been given out twice. -/
structure Charted (r : Solids) (chart : Chart) : Prop where
  owned : ∀ c h, r.owners.get? c = some h ↔ ∃ b, chart h = some (b, c)
  carries : ∀ h b c, chart h = some (b, c) → r.bodies.get? b = some [c]
  moving : ∀ h b c, chart h = some (b, c) → b ∉ r.fixed
  apart : ∀ b b' cs cs' c, r.bodies.get? b = some cs → r.bodies.get? b' = some cs' →
    c ∈ cs → c ∈ cs' → b = b'
  below : ∀ b cs, r.bodies.get? b = some cs → b < r.nextBody ∧ ∀ c ∈ cs, c < r.nextCollider
  fixedBelow : ∀ b ∈ r.fixed, b < r.nextBody
  once : r.owners.keys.Nodup

namespace Charted

variable {r : Solids} {chart : Chart}

theorem empty : Solids.empty.Charted fun _ => none where
  owned c h := ⟨fun found => (by cases found), fun ⟨_, charted⟩ => (by cases charted)⟩
  carries h b c charted := by cases charted
  moving h b c charted := by cases charted
  apart b b' cs cs' c found := by cases found
  below b cs found := by cases found
  fixedBelow b hb := by cases hb
  once := List.nodup_nil

/-- No two actors have the same body. -/
theorem unique (hr : r.Charted chart) {h h' : Handle} {b : BodyKey} {c c' : ColliderKey}
    (hc : chart h = some (b, c)) (hc' : chart h' = some (b, c')) : h = h' := by
  have same : [c] = [c'] :=
    Option.some.inj ((hr.carries h b c hc).symm.trans (hr.carries h' b c' hc'))
  obtain rfl := List.singleton_inj.mp same
  have owner := (hr.owned c h).mpr ⟨b, hc⟩
  exact Option.some.inj (owner.symm.trans ((hr.owned c h').mpr ⟨b, hc'⟩))

theorem below_of_charted (hr : r.Charted chart) {h : Handle} {b : BodyKey} {c : ColliderKey}
    (hc : chart h = some (b, c)) : b < r.nextBody ∧ c < r.nextCollider := by
  obtain ⟨hb, colliders⟩ := hr.below b [c] (hr.carries h b c hc)
  exact ⟨hb, colliders c (List.mem_singleton_self c)⟩

/-- The chart may be written differently. -/
theorem congr {chart' : Chart} (hr : r.Charted chart) (same : ∀ h, chart' h = chart h) :
    r.Charted chart' :=
  funext same ▸ hr

/-! ## Entering -/

/-- Which colliders are the ground and the walls does not matter. -/
theorem relabel (hr : r.Charted chart) (ground : Option ColliderKey) (walls : List ColliderKey) :
    { r with ground := ground, walls := walls }.Charted chart :=
  ⟨hr.owned, hr.carries, hr.moving, hr.apart, hr.below, hr.fixedBelow, hr.once⟩

/-- The bodies after one more has been entered under keys that are new. -/
theorem grown (hr : r.Charted chart) :
    (∀ b cs, r.grown.bodies.get? b = some cs →
      (b = r.nextBody ∧ cs = [r.nextCollider]) ∨ r.bodies.get? b = some cs) ∧
    (∀ h b c, chart h = some (b, c) → r.grown.bodies.get? b = some [c]) ∧
    (∀ b b' cs cs' c, r.grown.bodies.get? b = some cs → r.grown.bodies.get? b' = some cs' →
      c ∈ cs → c ∈ cs' → b = b') ∧
    ∀ b cs, r.grown.bodies.get? b = some cs →
      b < r.nextBody + 1 ∧ ∀ c ∈ cs, c < r.nextCollider + 1 := by
  have found : ∀ b cs, r.grown.bodies.get? b = some cs →
      (b = r.nextBody ∧ cs = [r.nextCollider]) ∨ r.bodies.get? b = some cs := by
    intro b cs hb
    rw [Solids.grown, Table.get?_insert] at hb
    split at hb
    · exact .inl ⟨eq_of_beq ‹_›, (Option.some.inj hb).symm⟩
    · exact .inr hb
  refine ⟨found, fun h b c hc => ?_, fun b b' cs cs' c hb hb' mem mem' => ?_, fun b cs hb => ?_⟩
  · have old : ¬(b == r.nextBody) = true := fun same =>
      Nat.lt_irrefl _ (eq_of_beq same ▸ (hr.below_of_charted hc).1)
    rw [Solids.grown, Table.get?_insert, if_neg old]
    exact hr.carries h b c hc
  · -- the new collider is on the new body alone
    rcases found b cs hb with ⟨rfl, rfl⟩ | old <;> rcases found b' cs' hb' with ⟨rfl, rfl⟩ | old'
    · rfl
    · have := (hr.below b' cs' old').2 c mem'
      rw [List.mem_singleton.mp mem] at this
      exact absurd this (Nat.lt_irrefl _)
    · have := (hr.below b cs old).2 c mem
      rw [List.mem_singleton.mp mem'] at this
      exact absurd this (Nat.lt_irrefl _)
    · exact hr.apart b b' cs cs' c old old' mem mem'
  · rcases found b cs hb with ⟨rfl, rfl⟩ | old
    · refine ⟨Nat.lt_succ_self _, fun c hc => ?_⟩
      rw [List.mem_singleton.mp hc]
      exact Nat.lt_succ_self _
    · obtain ⟨hb, colliders⟩ := hr.below b cs old
      exact ⟨Nat.lt_succ_of_lt hb, fun c hc => Nat.lt_succ_of_lt (colliders c hc)⟩

/-- Putting up what never moves concerns no actor. -/
theorem addFixed (hr : r.Charted chart) : r.addFixed.2.Charted chart := by
  obtain ⟨-, carries, apart, below⟩ := hr.grown
  refine ⟨hr.owned, carries, fun h b c hc mem => ?_, apart, below, fun b mem => ?_, hr.once⟩
  · rcases List.mem_append.mp mem with mem | mem
    · exact hr.moving h b c hc mem
    · have := (hr.below_of_charted hc).1
      rw [List.mem_singleton.mp mem] at this
      exact Nat.lt_irrefl _ this
  · rcases List.mem_append.mp mem with mem | mem
    · exact Nat.lt_succ_of_lt (hr.fixedBelow b mem)
    · rw [List.mem_singleton.mp mem]
      exact Nat.lt_succ_self _

theorem putGround (hr : r.Charted chart) (wanted : Bool) : (r.putGround wanted).Charted chart := by
  cases wanted with
  | true => exact hr.addFixed.relabel _ _
  | false => exact hr

theorem putWalls (hr : r.Charted chart) (wanted : Bool) : (r.putWalls wanted).Charted chart := by
  cases wanted with
  | true => exact hr.addFixed.addFixed.relabel _ _
  | false => exact hr

/-- Around an empty stage nobody is charted. -/
theorem new (ground walls : Bool) : (Solids.new ground walls).Charted fun _ => none :=
  (empty.putGround ground).putWalls walls

/-- An actor is entered with the next keys. -/
theorem addOwned (hr : r.Charted chart) {h : Handle} (bare : chart h = none) :
    (r.addOwned h).2.Charted fun x =>
      if x = h then some (r.nextBody, r.nextCollider) else chart x := by
  obtain ⟨found, carries, apart, below⟩ := hr.grown
  have charted : ∀ x b c,
      (if x = h then some (r.nextBody, r.nextCollider) else chart x) = some (b, c) →
      (x = h ∧ b = r.nextBody ∧ c = r.nextCollider) ∨ (x ≠ h ∧ chart x = some (b, c)) := by
    intro x b c hc
    split at hc
    · obtain ⟨rfl, rfl⟩ := Prod.mk.inj (Option.some.inj hc)
      exact .inl ⟨‹_›, rfl, rfl⟩
    · exact .inr ⟨‹_›, hc⟩
  refine ⟨fun c x => ?_, fun x b c hc => ?_, fun x b c hc mem => ?_, apart, below,
    fun b mem => Nat.lt_succ_of_lt (hr.fixedBelow b mem), Table.nodup_keys_insert hr.once _ _⟩
  · show (r.owners.insert r.nextCollider h).get? c = some x ↔ _
    rw [Table.get?_insert]
    constructor
    · intro owner
      split at owner
      · rename_i last
        obtain rfl := Option.some.inj owner
        obtain rfl := eq_of_beq last
        exact ⟨r.nextBody, if_pos rfl⟩
      · obtain ⟨b, hb⟩ := (hr.owned c x).mp owner
        have other : x ≠ h := fun same => by
          rw [same, bare] at hb
          cases hb
        exact ⟨b, (if_neg other).trans hb⟩
    · rintro ⟨b, hb⟩
      rcases charted x b c hb with ⟨rfl, -, rfl⟩ | ⟨-, old⟩
      · rw [if_pos (beq_self_eq_true _)]
      · have other : ¬(c == r.nextCollider) = true := fun same =>
          Nat.lt_irrefl _ (eq_of_beq same ▸ (hr.below_of_charted old).2)
        rw [if_neg other]
        exact (hr.owned c x).mpr ⟨b, old⟩
  · rcases charted x b c hc with ⟨-, rfl, rfl⟩ | ⟨-, old⟩
    · show (r.bodies.insert r.nextBody [r.nextCollider]).get? r.nextBody = _
      rw [Table.get?_insert, if_pos (beq_self_eq_true _)]
    · exact carries x b c old
  · rcases charted x b c hc with ⟨-, rfl, -⟩ | ⟨-, old⟩
    · exact Nat.lt_irrefl _ (hr.fixedBelow _ mem)
    · exact hr.moving x b c old mem

/-! ## Taking away -/

/-- Whoever had the body that is taken away is struck off the chart. -/
theorem remove (hr : r.Charted chart) (body : BodyKey) :
    (r.remove body).Charted (chart.without [body]) := by
  have bodies : ∀ b, (r.remove body).bodies.get? b = if b == body then none else r.bodies.get? b :=
    fun b => r.bodies.get?_erase body b
  have left : ∀ b cs, (r.remove body).bodies.get? b = some cs → r.bodies.get? b = some cs := by
    intro b cs hb
    rw [bodies] at hb
    split at hb
    · cases hb
    · exact hb
  refine ⟨fun c h => ?_, fun h b c hc => ?_, fun h b c hc => ?_, fun b b' cs cs' c hb hb' => ?_,
    fun b cs hb => hr.below b cs (left b cs hb), hr.fixedBelow,
    Table.nodup_keys_foldl_erase hr.once _⟩
  · show (((r.bodies.get? body).getD []).foldl Table.erase r.owners).get? c = some h ↔ _
    rw [Table.get?_foldl_erase]
    constructor
    · intro owner
      split at owner
      · cases owner
      · rename_i kept
        obtain ⟨b, hb⟩ := (hr.owned c h).mp owner
        refine ⟨b, Chart.without_eq_some_iff.mpr ⟨hb, fun gone => kept ?_⟩⟩
        rw [← List.mem_singleton.mp gone, hr.carries h b c hb]
        exact List.contains_iff_mem.mpr (List.mem_singleton_self c)
    · rintro ⟨b, hb⟩
      obtain ⟨charted, other⟩ := Chart.without_eq_some_iff.mp hb
      -- the collider is on one body only, and that is not the one that goes
      have elsewhere : ¬((r.bodies.get? body).getD []).contains c = true := by
        intro mem
        cases carried : r.bodies.get? body with
        | none =>
          rw [carried] at mem
          cases mem
        | some cs =>
          rw [carried] at mem
          have same := hr.apart b body [c] cs c (hr.carries h b c charted) carried
            (List.mem_singleton_self c) (List.contains_iff_mem.mp mem)
          exact other (List.mem_singleton.mpr same)
      rw [if_neg elsewhere]
      exact (hr.owned c h).mpr ⟨b, charted⟩
  · obtain ⟨charted, other⟩ := Chart.without_eq_some_iff.mp hc
    rw [bodies, if_neg fun same => other (List.mem_singleton.mpr (eq_of_beq same))]
    exact hr.carries h b c charted
  · exact hr.moving h b c (Chart.without_eq_some_iff.mp hc).1
  · exact hr.apart b b' cs cs' c (left b cs hb) (left b' cs' hb')

theorem foldl_remove (hr : r.Charted chart) (l : List BodyKey) :
    (l.foldl Solids.remove r).Charted (chart.without l) := by
  induction l generalizing r chart with
  | nil =>
    refine hr.congr fun h => ?_
    rw [Chart.without]
    cases chart h <;> rfl
  | cons b l ih =>
    refine (ih (hr.remove b)).congr fun h => Option.ext fun ⟨b', c⟩ => ?_
    rw [Chart.without_eq_some_iff, Chart.without_eq_some_iff, Chart.without_eq_some_iff,
      List.mem_cons, List.mem_singleton, not_or, and_assoc]

/-- What never moves is nobody's, so taking it down leaves the chart. -/
theorem strip (hr : r.Charted chart) :
    (r.fixed.foldl Solids.remove { r with fixed := [] }).Charted chart := by
  have loose : { r with fixed := [] }.Charted chart :=
    ⟨hr.owned, hr.carries, fun _ _ _ _ => List.not_mem_nil, hr.apart, hr.below,
      fun _ mem => absurd mem List.not_mem_nil, hr.once⟩
  refine (loose.foldl_remove r.fixed).congr fun h => Option.ext fun ⟨b, c⟩ => ?_
  rw [Chart.without_eq_some_iff]
  exact ⟨fun hc => ⟨hc, hr.moving h b c hc⟩, And.left⟩

theorem rebuild (hr : r.Charted chart) (ground walls : Bool) :
    (r.rebuild ground walls).Charted chart :=
  ((hr.strip.relabel none []).putGround ground).putWalls walls

/-- After clearing nobody is charted. -/
theorem clearOwned (hr : r.Charted chart) : r.clearOwned.Charted fun _ => none := by
  refine (hr.foldl_remove _).congr fun h => ?_
  refine (Option.eq_none_iff_forall_not_mem.mpr fun ⟨b, c⟩ hc => ?_).symm
  obtain ⟨charted, kept⟩ := Chart.without_eq_some_iff.mp hc
  -- a charted body is in the register and not one that never moves, so it has been taken away
  refine kept (List.mem_filter.mpr ⟨Table.mem_keys.mpr ?_, ?_⟩)
  · rw [Table.contains, hr.carries h b c charted]
    rfl
  · simpa using hr.moving h b c charted

end Charted

/-! ## Clearing twice -/

theorem fixed_foldl_remove (l : List BodyKey) (r : Solids) :
    (l.foldl remove r).fixed = r.fixed := by
  induction l generalizing r with
  | nil => rfl
  | cons b l ih => exact ih (r.remove b)

theorem keys_foldl_remove (l : List BodyKey) (r : Solids) {b : BodyKey}
    (hb : b ∈ (l.foldl remove r).bodies.keys) : b ∈ r.bodies.keys ∧ b ∉ l := by
  induction l generalizing r with
  | nil => exact ⟨hb, List.not_mem_nil⟩
  | cons first l ih =>
    obtain ⟨left, later⟩ := ih (r.remove first) hb
    have kept : (r.bodies.erase first).contains b = true := Table.mem_keys.mp left
    rw [Table.contains_erase, Bool.and_eq_true, Bool.not_eq_true', beq_eq_false_iff_ne] at kept
    exact ⟨Table.mem_keys.mpr kept.2, fun mem => (List.mem_cons.mp mem).elim kept.1 later⟩

/-- What has been cleared has nothing left to clear. -/
theorem clearOwned_clearOwned (r : Solids) : r.clearOwned.clearOwned = r.clearOwned := by
  have nothing : (r.clearOwned.bodies.keys.filter fun b => !r.clearOwned.fixed.contains b) = [] := by
    refine List.eq_nil_iff_forall_not_mem.mpr fun b hb => ?_
    obtain ⟨left, moving⟩ := List.mem_filter.mp hb
    obtain ⟨there, kept⟩ := keys_foldl_remove _ r left
    rw [clearOwned, fixed_foldl_remove] at moving
    exact kept (List.mem_filter.mpr ⟨there, moving⟩)
  show (r.clearOwned.bodies.keys.filter _).foldl remove r.clearOwned = r.clearOwned
  rw [nothing]
  rfl

end Solids

/-- A stage that has been cleared has nothing left to clear. -/
theorem Stage.clear_clear {α : Type} (s : Stage α) : s.clear.clear = s.clear := by
  have solids := s.solids.clearOwned_clearOwned
  rw [clear, clear]
  exact congrArg (fun r => { s.index.values.foldl dismiss s with
    ids := []
    index := .empty
    solids := r
    contacts := [] }) solids

end BlockStage
