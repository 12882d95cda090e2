/-
  Footing: a body counts its contacts with the ground by what physics reports of them.

  1. **What physics is trusted with (`Passage.Faithful`)** — it reports when two colliders begin to
     be in contact and, once, when they cease to be, also because one of them has been taken away;
     and the colliders that stay in contact are there.

  2. **Specification** — the count of a body is the number of contacts between its collider and the
     ground as it stands (`Stage.footing`).  That is so exactly as long as the canvas never gets
     another size under someone who stands on the ground (`grounds_of_perform`).

  3. **The crux** — another size puts up another ground, under a key that no contact knows yet.  The
     end of the contacts with the old ground is reported, but nobody is behind its collider any more,
     so nothing is noted and these contacts stay in the count for good (`Counted.resizeCanvas`).  All
     other changes of contacts are noted one by one (`standing_foldl`), which a run adds up to an
     account: the count is the footing and what has been uprooted (`Counted.perform`).
-/
import BlockStage.Proofs.Stage.Links
import BlockStage.Stage.Sensing

namespace BlockStage

/-! ## Colliders that never move -/

namespace Solids

/-- Is someone behind both colliders of a contact? -/
def Holds (r : Solids) (c : Contact) : Prop :=
  (r.solid? c.first).isSome = true ∧ (r.solid? c.second).isSome = true

/-- The ground and the walls have keys that have been given out, and not to actors. -/
def Fenced (r : Solids) : Prop :=
  ∀ c, r.ground = some c ∨ c ∈ r.walls → c < r.nextCollider ∧ r.owners.get? c = none

variable {r : Solids} {chart : Chart}

theorem Charted.owner_below (hr : r.Charted chart) {c : ColliderKey} {h : Handle}
    (owned : r.owners.get? c = some h) : c < r.nextCollider := by
  obtain ⟨b, hb⟩ := (hr.owned c h).mp owned
  exact (hr.below_of_charted hb).2

/-- The next key is nobody's. -/
theorem Charted.unowned (hr : r.Charted chart) {c : ColliderKey} (new : r.nextCollider ≤ c) :
    r.owners.get? c = none := by
  refine Option.eq_none_iff_forall_ne_some.mpr fun h owned => ?_
  exact Nat.lt_irrefl _ (Nat.lt_of_lt_of_le (hr.owner_below owned) new)

namespace Fenced

theorem putGround (hf : r.Fenced) (hr : r.Charted chart) (wanted : Bool) :
    (r.putGround wanted).Fenced := by
  cases wanted with
  | false => exact hf
  | true =>
    rintro c (ground | wall)
    · obtain rfl := Option.some.inj ground
      exact ⟨Nat.lt_succ_self _, hr.unowned (Nat.le_refl _)⟩
    · obtain ⟨old, unowned⟩ := hf c (.inr wall)
      exact ⟨Nat.lt_succ_of_lt old, unowned⟩

theorem putWalls (hf : r.Fenced) (hr : r.Charted chart) (wanted : Bool) :
    (r.putWalls wanted).Fenced := by
  cases wanted with
  | false => exact hf
  | true =>
    have old : ∀ c, r.ground = some c ∨ c ∈ r.walls →
        c < r.nextCollider + 1 + 1 ∧ r.owners.get? c = none := by
      intro c stands
      obtain ⟨old, unowned⟩ := hf c stands
      exact ⟨Nat.lt_succ_of_lt (Nat.lt_succ_of_lt old), unowned⟩
    rintro c (ground | wall)
    · exact old c (.inl ground)
    · rcases List.mem_append.mp wall with wall | new
      · exact old c (.inr wall)
      · have least : r.nextCollider ≤ c ∧ c < r.nextCollider + 1 + 1 := by
          rcases List.mem_pair.mp new with rfl | rfl
          · exact ⟨Nat.le_refl _, Nat.lt_succ_of_lt (Nat.lt_succ_self _)⟩
          · exact ⟨Nat.le_succ _, Nat.lt_succ_self _⟩
        exact ⟨least.2, hr.unowned least.1⟩

theorem addOwned (hf : r.Fenced) (h : Handle) : (r.addOwned h).2.Fenced := by
  intro c stands
  obtain ⟨old, unowned⟩ := hf c stands
  refine ⟨Nat.lt_succ_of_lt old, ?_⟩
  show (r.owners.insert r.nextCollider h).get? c = none
  rw [Table.get?_insert, if_neg fun same => Nat.ne_of_lt old (eq_of_beq same), unowned]

theorem remove (hf : r.Fenced) (body : BodyKey) : (r.remove body).Fenced := by
  intro c stands
  obtain ⟨old, unowned⟩ := hf c stands
  refine ⟨old, ?_⟩
  show (((r.bodies.get? body).getD []).foldl Table.erase r.owners).get? c = none
  rw [Table.get?_foldl_erase, unowned, ite_self]

theorem foldl_remove (hf : r.Fenced) (l : List BodyKey) : (l.foldl Solids.remove r).Fenced := by
  induction l generalizing r with
  | nil => exact hf
  | cons b l ih => exact ih (hf.remove b)

end Fenced

/-- Taking bodies away gives out no keys. -/
theorem nextCollider_foldl_remove (l : List BodyKey) (r : Solids) :
    (l.foldl remove r).nextCollider = r.nextCollider := by
  induction l generalizing r with
  | nil => rfl
  | cons b l ih => exact ih (r.remove b)

/-- What is put up comes under keys that are new. -/
theorem put_new (r : Solids) (ground walls : Bool) :
    r.nextCollider ≤ ((r.putGround ground).putWalls walls).nextCollider ∧
      ∀ g, ((r.putGround ground).putWalls walls).ground = some g →
        r.ground = some g ∨ g = r.nextCollider := by
  have walled : ∀ q : Solids, q.nextCollider ≤ (q.putWalls walls).nextCollider ∧
      (q.putWalls walls).ground = q.ground := by
    intro q
    cases walls with
    | false => exact ⟨Nat.le_refl _, rfl⟩
    | true => exact ⟨Nat.le_succ_of_le (Nat.le_succ _), rfl⟩
  obtain ⟨next, same⟩ := walled (r.putGround ground)
  rw [same]
  cases ground with
  | false => exact ⟨next, fun g => .inl⟩
  | true => exact ⟨Nat.le_trans (Nat.le_succ _) next, fun g hg => .inr (Option.some.inj hg).symm⟩

/-- What is put up anew stands apart from everything that has been there. -/
theorem rebuild_new (hr : r.Charted chart) (ground walls : Bool) :
    (r.rebuild ground walls).Fenced ∧ r.nextCollider ≤ (r.rebuild ground walls).nextCollider ∧
      ∀ g, (r.rebuild ground walls).ground = some g → r.nextCollider ≤ g := by
  let bare : Solids :=
    { r.fixed.foldl Solids.remove { r with fixed := [] } with ground := none, walls := [] }
  have charted : bare.Charted chart := hr.strip.relabel none []
  have next : bare.nextCollider = r.nextCollider := nextCollider_foldl_remove r.fixed _
  have fenced : bare.Fenced := by
    rintro c (ground | wall)
    · cases ground
    · cases wall
  obtain ⟨later, put⟩ := bare.put_new ground walls
  refine ⟨(fenced.putGround charted ground).putWalls (charted.putGround ground) walls,
    next ▸ later, fun g hg => ?_⟩
  rcases put g hg with none | rfl
  · cases none
  · exact Nat.le_of_eq next.symm

/-- The register tells an actor's collider by its owner. -/
theorem solid?_eq_actor_iff (hf : r.Fenced) (hr : r.Charted chart) {c : ColliderKey} {h : Handle} :
    r.solid? c = some (.actor h) ↔ ∃ b, chart h = some (b, c) := by
  rw [← hr.owned, solid?]
  constructor
  · intro solid
    split at solid
    · cases solid
    split at solid
    · cases solid
    obtain ⟨x, owned, same⟩ := Option.map_eq_some_iff.mp solid
    cases same
    exact owned
  · intro owned
    have elsewhere : ¬(r.ground = some c ∨ c ∈ r.walls) := by
      intro stands
      rw [(hf c stands).2] at owned
      cases owned
    rw [if_neg fun ground => elsewhere (.inl (eq_of_beq ground)),
      if_neg fun wall => elsewhere (.inr (List.contains_iff_mem.mp wall)), owned]
    rfl

theorem solid?_eq_ground_iff (r : Solids) {c : ColliderKey} :
    r.solid? c = some .ground ↔ r.ground = some c := by
  rw [solid?]
  constructor
  · intro solid
    split at solid
    · exact eq_of_beq ‹_›
    split at solid
    · cases solid
    obtain ⟨x, -, same⟩ := Option.map_eq_some_iff.mp solid
    cases same
  · intro ground
    rw [if_pos (beq_iff_eq.mpr ground)]

/-- Whoever is behind a collider, its key has been given out. -/
theorem below_of_solid? (hf : r.Fenced) (hr : r.Charted chart) {c : ColliderKey}
    (there : (r.solid? c).isSome = true) : c < r.nextCollider := by
  rw [solid?] at there
  split at there
  · exact (hf c (.inl (eq_of_beq ‹_›))).1
  split at there
  · exact (hf c (.inr (List.contains_iff_mem.mp ‹_›))).1
  rw [Option.isSome_map] at there
  obtain ⟨h, owned⟩ := Option.isSome_iff_exists.mp there
  exact hr.owner_below owned

end Solids

/-! ## What physics is trusted with -/

/-- Is it a contact between these two, whichever comes first? -/
def Contact.joins (c : Contact) (x y : ColliderKey) : Bool := c == ⟨x, y⟩ || c == ⟨y, x⟩

/-- The changes lead from the contacts before to the contacts after: what begins was not there, and
    what ends was, unless a collider of it is gone. -/
inductive Recounts (r : Solids) : List Contact → List (Bool × Contact) → List Contact → Prop where
  | done {before after : List Contact} : before.Perm after → Recounts r before [] after
  | began {before changes after c} : c ∉ before → Recounts r (c :: before) changes after →
      Recounts r before ((true, c) :: changes) after
  | ended {before changes after c} : c ∈ before ∨ ¬r.Holds c →
      Recounts r (before.erase c) changes after → Recounts r before ((false, c) :: changes) after

namespace Stage

variable {α : Type} {s t : Stage α}

/-- What physics is trusted with: all changes of contacts are reported, and the colliders that are
    in contact are there. -/
structure Passage.Faithful (p : Passage α) (s : Stage α) : Prop where
  recounts : Recounts s.solids s.contacts p.changes p.contacts
  there : ∀ c ∈ p.contacts, s.solids.Holds c

section
variable [Scalar α]

/-- If the operation lets time pass, are the contacts reported faithfully? -/
def Op.Faithful (s : Stage α) : Op α → Prop
  | .step engine dt =>
    Scalar.less Scalar.zero dt = true → (engine s.poised dt).Faithful s.poised
  | _ => True

/-- Are they all along a run? -/
def Faithful (s : Stage α) : List (Op α) → Prop
  | [] => True
  | op :: ops => op.Faithful s ∧ Faithful (op.apply s) ops

end

/-! ## Footing -/

/-- Is it a contact of an actor's body with the ground as it stands? -/
def isFooting (s : Stage α) (h : Handle) (c : Contact) : Bool :=
  match s.chart h, s.solids.ground with
  | some (_, x), some g => c.joins x g
  | _, _ => false

/-- The number of contacts of an actor's body with the ground as it stands. -/
def footing (s : Stage α) (h : Handle) : Nat := s.contacts.countP (s.isFooting h)

/-- The contacts with the ground that an actor's body counts. -/
def standing (s : Stage α) (h : Handle) : Nat := ((s.body? h).map Body.grounds).getD 0

theorem isFooting_congr {h : Handle} (chart : t.chart h = s.chart h)
    (ground : t.solids.ground = s.solids.ground) : t.isFooting h = s.isFooting h := by
  funext c
  rw [isFooting, isFooting, chart, ground]

/-- A contact with the ground is told by who is behind its colliders. -/
theorem isFooting_iff (hf : s.solids.Fenced) (hr : s.solids.Charted s.chart) {h : Handle}
    {c : Contact} : s.isFooting h c = true ↔
      (s.solids.solid? c.first = some (.actor h) ∧ s.solids.solid? c.second = some .ground) ∨
        (s.solids.solid? c.first = some .ground ∧ s.solids.solid? c.second = some (.actor h)) := by
  rw [Solids.solid?_eq_actor_iff hf hr, Solids.solid?_eq_actor_iff hf hr,
    Solids.solid?_eq_ground_iff, Solids.solid?_eq_ground_iff, isFooting]
  obtain ⟨first, second⟩ := c
  constructor
  · intro footing
    split at footing
    · rename_i b x g charted ground
      rw [Contact.joins, Bool.or_eq_true, beq_iff_eq, beq_iff_eq] at footing
      rcases footing with same | same <;> cases same
      · exact .inl ⟨⟨b, charted⟩, ground⟩
      · exact .inr ⟨ground, ⟨b, charted⟩⟩
    · cases footing
  · rintro (⟨⟨b, charted⟩, ground⟩ | ⟨ground, ⟨b, charted⟩⟩) <;> rw [charted, ground]
    · exact Bool.or_eq_true_iff.mpr (.inl (beq_self_eq_true _))
    · exact Bool.or_eq_true_iff.mpr (.inr (beq_self_eq_true _))

/-! ## Taking note -/

theorem standing_noteGround (s : Stage α) (x h : Handle) (began : Bool) :
    (s.noteGround x began).2.standing h
      = if h = x ∧ (s.body? x).isSome = true then
          (if began then s.standing h + 1 else s.standing h - 1)
        else s.standing h := by
  rw [noteGround]
  cases embodied : s.body? x with
  | none => exact (if_neg fun both => (by cases both.2)).symm
  | some b =>
    have changed : ∀ count, ((s.modifyBody x fun b => { b with grounds := count }).body? h)
        = if h = x then some { b with grounds := count } else s.body? h := by
      intro count
      rw [modifyBody, body?, actor?_modify]
      by_cases same : h = x
      · obtain ⟨a, ha, hb⟩ := Option.bind_eq_some_iff.mp embodied
        rw [if_pos (beq_iff_eq.mpr same), if_pos same, ha, Option.map_some, Option.bind_some, hb]
        rfl
      · rw [if_neg fun eq => same (eq_of_beq eq), if_neg same]
        rfl
    have own : s.standing x = b.grounds := by
      rw [standing, embodied]
      rfl
    dsimp only
    rw [standing, changed]
    by_cases same : h = x
    · have both : h = x ∧ (some b).isSome = true := ⟨same, rfl⟩
      rw [if_pos same, if_pos both, same, own]
      rfl
    · rw [if_neg same, if_neg fun both => same both.1]
      rfl

/-- **One change is noted**: the count of an actor changes with its contacts with the ground, and with
    nothing else. -/
theorem standing_noteChange {acc : StepReport × Stage α} (hf : acc.2.solids.Fenced)
    (hr : acc.2.solids.Charted acc.2.chart) (began : Bool) (c : Contact) (h : Handle) :
    (noteChange acc (began, c)).2.standing h
      = if acc.2.isFooting h c = true then
          (if began then acc.2.standing h + 1 else acc.2.standing h - 1)
        else acc.2.standing h := by
  have footing := isFooting_iff hf hr (h := h) (c := c)
  have noted : ∀ x, (∃ k, acc.2.solids.solid? k = some (.actor x)) →
      (acc.2.isFooting h c = true ↔ h = x) → (acc.2.noteGround x began).2.standing h
        = if acc.2.isFooting h c = true then
            (if began then acc.2.standing h + 1 else acc.2.standing h - 1)
          else acc.2.standing h := by
    rintro x ⟨k, solid⟩ foots
    obtain ⟨b, charted⟩ := (Solids.solid?_eq_actor_iff hf hr).mp solid
    have embodied : (acc.2.body? x).isSome = true := by
      rw [← Option.isSome_map (f := Body.keys)]
      exact Option.isSome_iff_exists.mpr ⟨_, charted⟩
    rw [standing_noteGround]
    exact if_congr ((and_iff_left embodied).trans foots.symm) rfl rfl
  rw [noteChange.eq_def]
  split
  · rename_i x first second
    refine noted x ⟨_, first⟩ (footing.trans ?_)
    rw [first, second]
    constructor
    · rintro (⟨actor, -⟩ | ⟨ground, -⟩)
      · cases actor
        rfl
      · cases ground
    · rintro rfl
      exact .inl ⟨rfl, rfl⟩
  · rename_i x first second
    refine noted x ⟨_, second⟩ (footing.trans ?_)
    rw [first, second]
    constructor
    · rintro (⟨actor, -⟩ | ⟨-, actor⟩)
      · cases actor
      · cases actor
        rfl
    · rintro rfl
      exact .inr ⟨rfl, rfl⟩
  · rename_i a b first second
    refine (if_neg fun foots => ?_).symm
    rcases footing.mp foots with ⟨-, ground⟩ | ⟨ground, -⟩
    · rw [second] at ground
      cases ground
    · rw [first] at ground
      cases ground
  · rename_i other other' _
    refine (if_neg fun foots => ?_).symm
    rcases footing.mp foots with ⟨actor, ground⟩ | ⟨ground, actor⟩
    · exact other h actor ground
    · exact other' h ground actor

/-- The next change is noted on a stage that is tied as the first one. -/
theorem SameTies.noteChange (hf : s.solids.Fenced) (hr : s.solids.Charted s.chart)
    {acc : StepReport × Stage α} (same : SameTies s acc.2) (began : Bool) (c : Contact) (h : Handle) :
    SameTies s (Stage.noteChange acc (began, c)).2 ∧
      (Stage.noteChange acc (began, c)).2.standing h
        = if s.isFooting h c = true then
            (if began then acc.2.standing h + 1 else acc.2.standing h - 1)
          else acc.2.standing h := by
  have fenced : acc.2.solids.Fenced := same.solids ▸ hf
  have charted : acc.2.solids.Charted acc.2.chart := by
    rw [same.solids]
    exact hr.congr same.chart
  have foots := isFooting_congr (same.chart h) (congrArg Solids.ground same.solids)
  refine ⟨same.trans ((sameSight_noteChange acc (began, c)).sameTies), ?_⟩
  rw [standing_noteChange fenced charted, foots]

/-- Someone is behind both colliders of a contact with the ground. -/
theorem holds_of_isFooting (hf : s.solids.Fenced) (hr : s.solids.Charted s.chart) {h : Handle}
    {c : Contact} (foots : s.isFooting h c = true) : s.solids.Holds c := by
  rcases (isFooting_iff hf hr).mp foots with ⟨first, second⟩ | ⟨first, second⟩ <;>
    exact ⟨by rw [first]; rfl, by rw [second]; rfl⟩

/-- **All changes are noted**: from a faithful report a count is brought up to date, and what it was
    wrong by before it is wrong by afterwards. -/
theorem standing_foldl (hf : s.solids.Fenced) (hr : s.solids.Charted s.chart) (h : Handle) (k : Nat)
    {before after : List Contact} {changes : List (Bool × Contact)}
    (recounts : Recounts s.solids before changes after) :
    ∀ acc : StepReport × Stage α, SameTies s acc.2 →
      acc.2.standing h = before.countP (s.isFooting h) + k →
      (changes.foldl noteChange acc).2.standing h = after.countP (s.isFooting h) + k := by
  induction recounts with
  | done perm =>
    intro acc _ stands
    rw [List.foldl_nil, stands, perm.countP_eq]
  | began _ _ ih =>
    rename_i c _ _
    intro acc same stands
    obtain ⟨same, next⟩ := same.noteChange hf hr true c h
    refine ih _ same ?_
    rw [next, stands, List.countP_cons]
    simp only [reduceIte]
    split <;> omega
  | ended was _ ih =>
    rename_i before _ _ c _
    intro acc same stands
    obtain ⟨same, next⟩ := same.noteChange hf hr false c h
    refine ih _ same ?_
    rw [next, stands]
    by_cases listed : c ∈ before
    · rw [(List.perm_cons_erase listed).countP_eq, List.countP_cons]
      simp only [reduceIte, Bool.false_eq_true]
      split <;> omega
    · -- a contact that was not there has no one behind it, and is no footing
      have gone : ¬s.isFooting h c = true := fun foots =>
        was.resolve_left listed (holds_of_isFooting hf hr foots)
      rw [if_neg gone, List.erase_of_not_mem listed]

/-! ## The account -/

/-- The count of an actor who is there or is still to come is the number of contacts that it has with
    the ground and as many more as are put down as lost. -/
structure Counted (s : Stage α) (lost : Handle → Nat) : Prop where
  charted : s.solids.Charted s.chart
  fenced : s.solids.Fenced
  below : ∀ h, (s.actor? h).isSome = true → h < s.nextHandle
  old : ∀ c ∈ s.contacts, c.first < s.solids.nextCollider ∧ c.second < s.solids.nextCollider
  account : ∀ h, (s.actor? h).isSome = true ∨ s.nextHandle ≤ h →
    s.standing h = s.footing h + lost h

theorem SameSight.standing (h : SameSight Actor.feet s t) (x : Handle) :
    t.standing x = s.standing x :=
  congrArg (Option.getD · 0) (h.map_body? x Prod.snd)

theorem footing_of_bare {h : Handle} (bare : s.chart h = none) : s.footing h = 0 := by
  refine List.countP_eq_zero.mpr fun c _ foots => ?_
  rw [isFooting, bare] at foots
  cases foots

theorem standing_of_bare {h : Handle} (bare : s.chart h = none) : s.standing h = 0 := by
  rw [standing, Option.map_eq_none_iff.mp bare]
  rfl

/-- Nobody stands on a ground that is new, and nobody who is new stands on any. -/
theorem footing_of_new {h : Handle} {k : ColliderKey}
    (old : ∀ c ∈ s.contacts, c.first < k ∧ c.second < k)
    (new : ∀ b x g, s.chart h = some (b, x) → s.solids.ground = some g → k ≤ x ∨ k ≤ g) :
    s.footing h = 0 := by
  refine List.countP_eq_zero.mpr fun c hc foots => ?_
  obtain ⟨first, second⟩ := old c hc
  rw [isFooting] at foots
  split at foots
  · rename_i b x g charted ground
    rw [Contact.joins, Bool.or_eq_true, beq_iff_eq, beq_iff_eq] at foots
    have below : x < k ∧ g < k := by
      rcases foots with rfl | rfl
      · exact ⟨first, second⟩
      · exact ⟨second, first⟩
    rcases new b x g charted ground with late | late
    · exact Nat.lt_irrefl _ (Nat.lt_of_lt_of_le below.1 late)
    · exact Nat.lt_irrefl _ (Nat.lt_of_lt_of_le below.2 late)
  · cases foots

namespace Counted

variable {lost : Handle → Nat}

theorem new (canvas : Canvas α) (physics : PhysicsConfig α) :
    (Stage.new canvas physics).Counted fun _ => 0 where
  charted := (tied_new canvas physics).charted
  fenced := by
    have empty : Solids.empty.Fenced := by
      rintro c (ground | wall)
      · cases ground
      · cases wall
    have charted := Solids.Charted.empty.putGround physics.ground
    exact (empty.putGround .empty physics.ground).putWalls charted physics.walls
  below h live := by cases live
  old c hc := by cases hc
  account h _ := by
    have bare : (Stage.new canvas physics).chart h = none := rfl
    rw [standing_of_bare bare, footing_of_bare bare]

/-- Whoever has no body has lost nothing, if it is there or is still to come. -/
theorem nothing_lost (hs : s.Counted lost) {h : Handle} (bare : s.chart h = none)
    (there : (s.actor? h).isSome = true ∨ s.nextHandle ≤ h) : lost h = 0 := by
  have account := hs.account h there
  rw [standing_of_bare bare, footing_of_bare bare, Nat.zero_add] at account
  exact account.symm

/-- Behind a handle that is still to be given out is nobody. -/
theorem nobody_later (hs : s.Counted lost) {h : Handle} (later : s.nextHandle ≤ h) :
    s.actor? h = none :=
  Option.not_isSome_iff_eq_none.mp fun live =>
    Nat.lt_irrefl _ (Nat.lt_of_lt_of_le (hs.below h live) later)

theorem nothing_lost_later (hs : s.Counted lost) {h : Handle} (later : s.nextHandle ≤ h) :
    lost h = 0 := by
  refine hs.nothing_lost ?_ (.inr later)
  rw [chart, body?, hs.nobody_later later]
  rfl

/-- An account stands where body, ground and contacts are the same. -/
theorem account_of_same (hs : s.Counted lost) {h : Handle} (body : t.body? h = s.body? h)
    (ground : t.solids.ground = s.solids.ground) (contacts : t.contacts = s.contacts)
    (there : (s.actor? h).isSome = true ∨ s.nextHandle ≤ h) :
    t.standing h = t.footing h + lost h := by
  have chart : t.chart h = s.chart h := congrArg (Option.map Body.keys) body
  rw [standing, body, footing, isFooting_congr chart ground, contacts]
  exact hs.account h there

/-- What sees the same keys, counts and contacts keeps the account. -/
theorem sameSight (hs : s.Counted lost) (h : SameSight Actor.feet s t) : t.Counted lost where
  charted := h.charted hs.charted
  fenced := h.solids ▸ hs.fenced
  below x live := by
    rw [h.isSome_actor?] at live
    rw [h.nextHandle]
    exact hs.below x live
  old := by
    rw [h.contacts, h.solids]
    exact hs.old
  account x there := by
    have foots := isFooting_congr (congrFun h.chart x) (congrArg Solids.ground h.solids)
    rw [h.isSome_actor?, h.nextHandle] at there
    rw [h.standing, footing, foots, h.contacts]
    exact hs.account x there

/-- What is reported faithfully is noted in full. -/
theorem undergo (hs : s.Counted lost) {p : Passage α} (faithful : p.Faithful s) :
    (s.undergo p).2.Counted lost := by
  have moved := SameSight.foldl (overlooks_feet (α := α)).storeBody p.bodies s
  let u : Stage α := { p.bodies.foldl storeBody s with contacts := p.contacts }
  have noted := sameSight_foldl_noteChange p.changes (⟨[], []⟩, u)
  have ties := sameTies_undergo s p
  let t : Stage α := (s.undergo p).2
  have nextHandle : t.nextHandle = s.nextHandle := noted.nextHandle.trans moved.nextHandle
  have contacts : t.contacts = p.contacts := noted.contacts
  have live : ∀ x, (t.actor? x).isSome = (s.actor? x).isSome :=
    fun x => (noted.isSome_actor? x).trans (moved.isSome_actor? x)
  refine ⟨ties.solids ▸ hs.charted.congr ties.chart, ties.solids ▸ hs.fenced, fun x there => ?_,
    fun c hc => ?_, fun x there => ?_⟩
  · rw [live] at there
    rw [nextHandle]
    exact hs.below x there
  · have there := faithful.there c (contacts ▸ hc)
    rw [ties.solids]
    exact ⟨Solids.below_of_solid? hs.fenced hs.charted there.1,
      Solids.below_of_solid? hs.fenced hs.charted there.2⟩
  · rw [live, nextHandle] at there
    have begun : u.standing x = s.contacts.countP (s.isFooting x) + lost x :=
      (moved.standing x).trans (hs.account x there)
    have tied := SameSight.foldl (overlooks_ties (α := α)).storeBody p.bodies s
    have ended := standing_foldl hs.fenced hs.charted x (lost x) faithful.recounts (⟨[], []⟩, u)
      ⟨tied.seen, tied.solids⟩ begun
    have foots := isFooting_congr (ties.chart x) (congrArg Solids.ground ties.solids)
    show t.standing x = t.contacts.countP (t.isFooting x) + lost x
    rw [foots, contacts]
    exact ended

section
variable [Scalar α]

/-- A body begins without contacts. -/
theorem enablePhysics (hs : s.Counted lost) (h : Handle) (settings : BodySettings α) :
    (s.enablePhysics h settings).2.Counted lost := by
  have charted := s.charted_enablePhysics hs.charted h settings
  rcases s.enablePhysics_cases h settings with same | ⟨a, b, ha, bare, keys, grounds, entered⟩
  · rw [same]
    exact hs
  · rw [entered] at charted ⊢
    have uncharted : s.chart h = none := by
      rw [chart, body?, ha, Option.bind_some, bare]
      rfl
    have live : ∀ x, ((s.enter h b).actor? x).isSome = (s.actor? x).isSome :=
      fun x => isSome_actor?_modify _ h x _
    refine ⟨charted, hs.fenced.addOwned h, fun x there => ?_, fun c hc => ?_, fun x there => ?_⟩
    · rw [live] at there
      exact hs.below x there
    · obtain ⟨first, second⟩ := hs.old c hc
      exact ⟨Nat.lt_succ_of_lt first, Nat.lt_succ_of_lt second⟩
    · rw [live] at there
      by_cases own : x = h
      · have nothing := hs.nothing_lost (own ▸ uncharted) there
        have foots : (s.enter h b).footing x = 0 := by
          refine footing_of_new (s := s.enter h b) hs.old fun b' y g charted _ => .inl ?_
          rw [chart, body?_enter ha, if_pos own, Option.map_some, keys] at charted
          exact Nat.le_of_eq (Prod.mk.inj (Option.some.inj charted)).2
        rw [foots, nothing, standing, body?_enter ha, if_pos own, Option.map_some, grounds]
        rfl
      · have same : (s.enter h b).body? x = s.body? x := by
          rw [body?_enter ha, if_neg own]
        exact hs.account_of_same same rfl rfl there

/-- Whoever comes has neither stood nor counted. -/
theorem spawn (hs : s.Counted lost) (orderly : s.Orderly) {d : Spawn α} {h : Handle}
    (ht : s.spawn d = .ok (h, t)) : t.Counted lost := by
  obtain ⟨-, -, chart⟩ := s.ties_place orderly d
  obtain ⟨-, rfl⟩ := eq_of_spawn ht
  let u := s.receive (s.actorOf d)
  have body : ∀ x, u.body? x = s.body? x := by
    intro x
    rw [body?, body?, actor?_receive]
    split
    · rename_i new
      rw [new, hs.nobody_later (Nat.le_refl _)]
      rfl
    · rfl
  have placed : u.Counted lost := by
    refine ⟨hs.charted.congr chart, hs.fenced, fun x live => ?_, hs.old, fun x there => ?_⟩
    · rw [actor?_receive] at live
      split at live
      · rename_i new
        rw [new]
        exact Nat.lt_succ_self _
      · exact Nat.lt_succ_of_lt (hs.below x live)
    · have before : (s.actor? x).isSome = true ∨ s.nextHandle ≤ x := by
        rcases there with live | later
        · rw [actor?_receive] at live
          split at live
          · rename_i new
            exact .inr (Nat.le_of_eq new.symm)
          · exact .inl live
        · exact .inr (Nat.le_of_succ_le later)
      exact hs.account_of_same (body x) rfl rfl before
  have embodied : (u.embody s.nextHandle d.body).Counted lost :=
    embody_keeps (P := (Counted · lost)) placed (placed.enablePhysics _) d.body
  exact embodied.sameSight ⟨fun _ => rfl, rfl, rfl, rfl⟩

/-- Whoever leaves takes its count along. -/
theorem despawn (hs : s.Counted lost) (id : String) : (s.despawn id).2.Counted lost := by
  cases known : s.find? id with
  | none =>
    rw [Stage.despawn, known]
    exact hs
  | some h =>
    obtain ⟨w, released, left⟩ := s.despawn_eq known
    have hw := hs.sameSight released
    rw [left]
    let t : Stage α := (w.disembody h).dismiss h
    have found : ∀ x, t.actor? x = if x == h then none else w.actor? x := w.actors.get?_erase h
    have live : ∀ x, (t.actor? x).isSome = true → x ≠ h ∧ (w.actor? x).isSome = true := by
      intro x there
      rw [found] at there
      split at there
      · cases there
      · exact ⟨fun same => ‹¬_› (beq_iff_eq.mpr same), there⟩
    have solids : t.solids = w.solids ∨ ∃ k, t.solids = w.solids.remove k := by
      show (w.disembody h).solids = w.solids ∨ ∃ k, (w.disembody h).solids = w.solids.remove k
      rw [disembody]
      split
      · exact .inr ⟨_, rfl⟩
      · exact .inl rfl
    obtain ⟨fenced, ground, next⟩ : t.solids.Fenced ∧ t.solids.ground = w.solids.ground ∧
        t.solids.nextCollider = w.solids.nextCollider := by
      rcases solids with same | ⟨k, same⟩ <;> rw [same]
      · exact ⟨hw.fenced, rfl, rfl⟩
      · exact ⟨hw.fenced.remove k, rfl, rfl⟩
    refine ⟨w.charted_depart hw.charted h, fenced, fun x there => hw.below x (live x there).2,
      fun c hc => ?_, fun x there => ?_⟩
    · rw [next]
      exact hw.old c hc
    · have before : (w.actor? x).isSome = true ∨ w.nextHandle ≤ x :=
        there.imp_left fun there => (live x there).2
      by_cases own : x = h
      · -- nobody was there under that handle, nor is now
        have gone : t.chart x = none := by
          rw [chart, body?_depart, if_pos own]
          rfl
        have later := there.resolve_left fun there => (live x there).1 own
        rw [standing_of_bare gone, footing_of_bare gone, hw.nothing_lost_later later]
      · have body : t.body? x = w.body? x := by
          rw [body?_depart, if_neg own]
        exact hw.account_of_same body ground rfl before

/-- When everyone leaves, nobody is left to count. -/
theorem clear (hs : s.Counted lost) (tied : s.Tied) : s.clear.Counted lost := by
  have nobody : ∀ x, s.clear.actor? x = none := by
    intro x
    rw [actor?, tied.orderly.actors_clear]
    rfl
  have bare : ∀ x, s.clear.chart x = none := by
    intro x
    rw [chart, body?, nobody]
    rfl
  have next : s.clear.nextHandle = s.nextHandle := by
    have kept : ∀ (l : List Handle) (s : Stage α), (l.foldl dismiss s).nextHandle = s.nextHandle := by
      intro l
      induction l with
      | nil => exact fun s => rfl
      | cons h l ih => exact fun s => ih (s.dismiss h)
    exact kept _ s
  refine ⟨(tied.apply .clear).charted, hs.fenced.foldl_remove _, fun x there => ?_,
    fun c hc => (by cases hc), fun x there => ?_⟩
  · rw [nobody] at there
    cases there
  · rw [nobody, next] at there
    have later := there.resolve_left fun none => (by cases none)
    rw [standing_of_bare (bare x), footing_of_bare (bare x), hs.nothing_lost_later later]

/-- On another canvas everyone stands on nothing yet, and what was counted before is lost. -/
theorem resizeCanvas (hs : s.Counted lost) (width height : α) :
    (s.resizeCanvas width height).2.Counted fun h =>
      lost h + if (s.resizeCanvas width height).1 = true then s.footing h else 0 := by
  rcases overlooks_feet.resizeCanvas s width height with ⟨refused, same⟩ | ⟨accepted, u, seen, resized⟩
  · rw [refused, same]
    exact hs
  · rw [accepted, resized]
    have hu := hs.sameSight seen
    obtain ⟨fenced, later, new⟩ := Solids.rebuild_new hu.charted u.physics.ground u.physics.walls
    let t : Stage α := { u with solids := u.solids.rebuild u.physics.ground u.physics.walls }
    refine ⟨hu.charted.rebuild _ _, fenced, hu.below, fun c hc => ?_, fun x there => ?_⟩
    · obtain ⟨first, second⟩ := hu.old c hc
      exact ⟨Nat.lt_of_lt_of_le first later, Nat.lt_of_lt_of_le second later⟩
    · have foots : t.footing x = 0 :=
        footing_of_new hu.old fun b y g _ ground => .inr (new g ground)
      have stood : s.footing x = u.footing x := by
        rw [footing, footing, seen.contacts,
          isFooting_congr (congrFun seen.chart x) (congrArg Solids.ground seen.solids)]
      have account : t.standing x = u.footing x + lost x := hu.account x there
      rw [account, foots, if_pos rfl, stood]
      omega

/-- A step that reports faithfully is noted in full. -/
theorem stepBy (hs : s.Counted lost) (engine : Stage α → α → Passage α) (dt : α)
    (faithful : Op.Faithful s (.step engine dt)) : (s.stepBy engine dt).2.Counted lost := by
  have begun := hs.sameSight (overlooks_feet.poised s)
  obtain ⟨t, passed, stepped⟩ := stepBy_eq engine s dt
  rw [stepped]
  suffices ht : t.Counted lost from ht.sameSight (overlooks_feet.followBody t)
  rcases passed with ⟨time, rfl⟩ | ⟨-, rfl⟩
  · exact begun.undergo (faithful time)
  · exact begun

end

end Counted

/-! ## Runs -/

section
variable [Scalar α]

/-- How many contacts of an actor with the ground are lost to an operation: if it gives the canvas
    another size, all that there are. -/
def Op.uproots (s : Stage α) (h : Handle) : Op α → Nat
  | .resizeCanvas width height => if (s.resizeCanvas width height).1 = true then s.footing h else 0
  | _ => 0

/-- How many are lost in a run. -/
def uprooted (s : Stage α) (h : Handle) : List (Op α) → Nat
  | [] => 0
  | op :: ops => op.uproots s h + uprooted (op.apply s) h ops

/-- Does the canvas never get another size while the actor stands on the ground? -/
def Rooted (s : Stage α) (h : Handle) (ops : List (Op α)) : Prop :=
  ∀ done op, done ++ [op] <+: ops → op.uproots (s.perform done) h = 0

theorem uprooted_eq_zero_iff (s : Stage α) (h : Handle) (ops : List (Op α)) :
    s.uprooted h ops = 0 ↔ s.Rooted h ops := by
  induction ops generalizing s with
  | nil =>
    refine iff_of_true rfl fun done op before => ?_
    exact absurd (List.prefix_nil.mp before) (List.concat_ne_nil _ _)
  | cons first ops ih =>
    rw [uprooted, Nat.add_eq_zero_iff, ih]
    constructor
    · rintro ⟨now, later⟩ done op before
      cases done with
      | nil =>
        obtain ⟨rfl, -⟩ := List.cons_prefix_cons.mp before
        exact now
      | cons x done =>
        obtain ⟨rfl, rest⟩ := List.cons_prefix_cons.mp before
        exact later done op rest
    · intro never
      exact ⟨never [] first (List.cons_prefix_cons.mpr ⟨rfl, List.nil_prefix⟩), fun done op before =>
        never (first :: done) op (List.cons_prefix_cons.mpr ⟨rfl, before⟩)⟩

namespace Counted

variable {lost : Handle → Nat}

/-- **The step lemma**: every operation keeps the account, with what it uproots put down as lost. -/
theorem apply (hs : s.Counted lost) (tied : s.Tied) (op : Op α) (faithful : op.Faithful s) :
    (op.apply s).Counted fun h => lost h + op.uproots s h := by
  cases op with
  | spawn d =>
    rw [Op.apply]
    split
    · exact hs.spawn tied.orderly ‹_›
    · exact hs
  | despawn id => exact hs.despawn id
  | clear => exact hs.clear tied
  | attach child parent => exact hs.sameSight (s.sameSight_attach child parent)
  | detach child => exact hs.sameSight (s.sameSight_detach child)
  | enablePhysics h settings => exact hs.enablePhysics h settings
  | resizeCanvas width height => exact hs.resizeCanvas width height
  | step engine dt => exact hs.stepBy engine dt faithful
  | _ => exact hs.sameSight (overlooks_feet.apply s (by trivial))

/-- **The run lemma**: so does every run. -/
theorem perform (hs : s.Counted lost) (tied : s.Tied) (ops : List (Op α))
    (faithful : s.Faithful ops) :
    (s.perform ops).Counted fun h => lost h + s.uprooted h ops := by
  induction ops generalizing s lost with
  | nil => exact hs
  | cons op ops ih =>
    have next := ih (hs.apply tied op faithful.1) (tied.apply op) faithful.2
    have sum : (fun h => lost h + s.uprooted h (op :: ops))
        = fun h => lost h + op.uproots s h + (op.apply s).uprooted h ops :=
      funext fun h => (Nat.add_assoc ..).symm
    rw [sum]
    exact next

end Counted

/-- **What a body counts.**  As long as physics reports faithfully, the count of a body is the number
    of its contacts with the ground as it stands and of those that have been uprooted.  So it is
    right exactly if the canvas never got another size while the actor stood on the ground, and
    otherwise the actor is taken to stand on the ground for good. -/
theorem grounds_of_perform (canvas : Canvas α) (physics : PhysicsConfig α) {ops : List (Op α)}
    (faithful : (Stage.new canvas physics).Faithful ops) {h : Handle} {b : Body α}
    (embodied : ((Stage.new canvas physics).perform ops).body? h = some b) :
    b.grounds = ((Stage.new canvas physics).perform ops).footing h
        + (Stage.new canvas physics).uprooted h ops ∧
      (b.grounds = ((Stage.new canvas physics).perform ops).footing h ↔
        (Stage.new canvas physics).Rooted h ops) ∧
      (((Stage.new canvas physics).perform ops).onGround h = true ↔
        0 < ((Stage.new canvas physics).perform ops).footing h ∨
          ¬(Stage.new canvas physics).Rooted h ops) := by
  have counted := (Counted.new canvas physics).perform (tied_new canvas physics) ops faithful
  have live : (((Stage.new canvas physics).perform ops).actor? h).isSome = true := by
    obtain ⟨a, ha, -⟩ := Option.bind_eq_some_iff.mp embodied
    rw [ha]
    rfl
  have count : b.grounds = ((Stage.new canvas physics).perform ops).footing h
      + (Stage.new canvas physics).uprooted h ops := by
    have account := counted.account h (.inl live)
    rw [standing, embodied, Nat.zero_add] at account
    exact account
  rw [← uprooted_eq_zero_iff, onGround, embodied, decide_eq_true_iff, count]
  exact ⟨rfl, Nat.add_eq_left, by omega⟩

end

/-! ## A canvas that grows -/

/-- A canvas with a ground. -/
def yard : Stage Float32 := .new ⟨800, 600⟩ ⟨⟨0, 980⟩, true, false, 20, 32, 1.5⟩

/-- A body comes and lands on the ground. -/
def landing : List (Op Float32) :=
  [.spawn { Spawn.new "crate" with body := some .usual },
    .step (fun _ _ => ⟨[], [(true, ⟨1, 0⟩)], [⟨1, 0⟩]⟩) 1]

/-- A body lands, the ground is moved down, and nothing is left to stand on. -/
def sinking : List (Op Float32) :=
  landing ++ [.resizeCanvas 800 900, .step (fun _ _ => ⟨[], [(false, ⟨1, 0⟩)], []⟩) 1]

theorem faithful_landing : yard.Faithful landing := by
  refine ⟨trivial, fun _ => ⟨.began List.not_mem_nil (.done (.refl _)), fun c hc => ?_⟩, trivial⟩
  obtain rfl := List.mem_singleton.mp hc
  exact ⟨by decide, by decide⟩

theorem faithful_sinking : yard.Faithful sinking := by
  refine ⟨trivial, faithful_landing.2.1, trivial, fun _ => ⟨?_, fun c hc => (by cases hc)⟩, trivial⟩
  exact .ended (.inl (List.mem_singleton_self _)) (.done (.refl _))

theorem grounds_landing : yard.Faithful landing ∧ ∃ b, (yard.perform landing).body? 0 = some b ∧
    b.grounds = (yard.perform landing).footing 0 ∧ (yard.perform landing).footing 0 = 1 ∧
      (yard.perform landing).onGround 0 = true := by
  obtain ⟨b, hb⟩ : ∃ b, (yard.perform landing).body? 0 = some b :=
    Option.isSome_iff_exists.mp (by decide +kernel)
  have footing : (yard.perform landing).footing 0 = 1 := by decide +kernel
  have uprooted : yard.uprooted 0 landing = 0 := by decide +kernel
  have some : 0 < (yard.perform landing).footing 0 := Nat.lt_of_lt_of_eq Nat.one_pos footing.symm
  obtain ⟨-, right, stands⟩ := grounds_of_perform _ _ faithful_landing hb
  exact ⟨faithful_landing, b, hb, right.mpr ((uprooted_eq_zero_iff ..).mp uprooted), footing,
    stands.mpr (.inl some)⟩

/-- What has been uprooted is counted for good: the body stands on nothing, and on the ground. -/
theorem not_footed_sinking : yard.Faithful sinking ∧
    ¬∀ h b, (yard.perform sinking).body? h = some b →
      b.grounds = (yard.perform sinking).footing h ∧
        ((yard.perform sinking).onGround h = true ↔ 0 < (yard.perform sinking).footing h) := by
  refine ⟨faithful_sinking, fun counted => ?_⟩
  obtain ⟨b, hb⟩ : ∃ b, (yard.perform sinking).body? 0 = some b :=
    Option.isSome_iff_exists.mp (by decide +kernel)
  have stands : (yard.perform sinking).onGround 0 = true := by decide +kernel
  have footing : (yard.perform sinking).footing 0 = 0 := by decide +kernel
  have some := (counted 0 b hb).2.mp stands
  rw [footing] at some
  exact Nat.lt_irrefl 0 some

end Stage

end BlockStage
