/-
  Look-up of sounds: when it does not matter in which order the sounds are listed.

  1. **Specification (`Session.Reproducible`)** — sounds are registered under their ids, each once
     (`Session.Shelved`).  The look-up of a key is reproducible if every order of the same sounds
     leads to the same one.

  2. **The theorem (`reproducible_iff`)** — it is exactly if the key is the id of a sound, or at most
     one sound bears it as its name.  An id leads to its sound wherever that is listed; a name leads
     to the first that bears it, and of two that do either may be listed first.

  3. **What fails**: names need not be unique, so which of two sounds of one name is played depends on
     the order of the table (`not_reproducible_echoing`).
-/
import BlockStage.Proofs.Session.Unbroken

namespace BlockStage

/-- Where no key comes twice, the order of the entries does not matter. -/
theorem Table.get?_perm {κ β : Type} [BEq κ] [LawfulBEq κ] {t u : Table κ β} (ht : t.keys.Nodup)
    (h : u.entries.Perm t.entries) (k : κ) : u.get? k = t.get? k := by
  have hu : u.keys.Nodup := (h.map Prod.fst).nodup_iff.mpr ht
  refine Option.ext fun v => ?_
  rw [← mem_entries_iff hu, ← mem_entries_iff ht]
  exact h.mem_iff

/-- What at most one member passes for is found in any order. -/
theorem List.find?_perm_of_unique {α : Type} {p : α → Bool} {l m : List α} (h : l.Perm m)
    (unique : ∀ x ∈ m, ∀ y ∈ m, p x = true → p y = true → x = y) : l.find? p = m.find? p := by
  cases found : m.find? p with
  | none =>
    exact List.find?_eq_none.mpr fun x hx => List.find?_eq_none.mp found x (h.mem_iff.mp hx)
  | some y =>
    have hy := List.mem_of_find?_eq_some found
    have passes := List.find?_some found
    obtain ⟨x, hx⟩ := Option.isSome_iff_exists.mp
      (List.find?_isSome.mpr ⟨y, h.mem_iff.mpr hy, passes⟩)
    rw [hx, unique x (h.mem_iff.mp (List.mem_of_find?_eq_some hx)) y hy (List.find?_some hx) passes]

namespace Session

variable {s : Session} {key : String}

/-! ## Tables of sounds -/

/-- Each sound is registered under its id, and no id comes twice. -/
structure Shelved (t : Table String BlockStage.Sound) : Prop where
  once : t.keys.Nodup
  own : ∀ e ∈ t.entries, e.1 = e.2.id

theorem Shelved.addSounds (hs : Shelved s.sounds) (l : List BlockStage.Sound) :
    Shelved (s.addSounds l).sounds where
  once := nodup_addSounds l hs.once
  own := by
    induction l generalizing s with
    | nil => exact hs.own
    | cons x l ih =>
      refine ih (s := s.addSounds [x]) ⟨nodup_addSounds [x] hs.once, fun e he => ?_⟩
      rcases Table.mem_insertEntry he with rfl | he
      · rfl
      · exact hs.own e he

/-- Hosts register sounds in no other way. -/
theorem shelved_of_visited (h : Visited s) : Shelved s.sounds := by
  induction h with
  | fresh => exact ⟨List.nodup_nil, fun _ none => (List.not_mem_nil none).elim⟩
  | call c _ ih =>
    rw [sounds_run]
    exact ih.addSounds c.sounds

/-! ## The specification -/

/-- The session with other sounds. -/
def withSounds (s : Session) (t : Table String BlockStage.Sound) : Session := { s with sounds := t }

/-- A key leads to the same sound in whichever order the sounds are listed. -/
def Reproducible (s : Session) (key : String) : Prop :=
  ∀ t : Table String BlockStage.Sound, t.entries.Perm s.sounds.entries →
    (s.withSounds t).sound? key = s.sound? key

/-- A key is the id of a sound, or no two sounds bear it as their name. -/
def Unambiguous (s : Session) (key : String) : Prop :=
  s.sounds.contains key = true ∨ ∀ x ∈ s.sounds.values, ∀ y ∈ s.sounds.values,
    eqIgnoringAsciiCase x.name key = true → eqIgnoringAsciiCase y.name key = true → x.id = y.id

/-- Of the sounds in a table each has an id of its own. -/
theorem Shelved.eq_of_id {t : Table String BlockStage.Sound} (ht : Shelved t)
    {x y : BlockStage.Sound} (hx : x ∈ t.values) (hy : y ∈ t.values) (same : x.id = y.id) :
    x = y := by
  obtain ⟨⟨j, x⟩, atJ, rfl⟩ := List.mem_map.mp hx
  obtain ⟨⟨k, y⟩, atK, rfl⟩ := List.mem_map.mp hy
  have keys : j = k := (ht.own _ atJ).trans (same.trans (ht.own _ atK).symm)
  rw [Table.mem_entries_iff ht.once, keys] at atJ
  rw [Table.mem_entries_iff ht.once] at atK
  exact Option.some.inj (atJ.symm.trans atK)

theorem sound?_of_id {x : BlockStage.Sound} (h : s.sounds.get? key = some x) :
    s.sound? key = some x := by
  rw [sound?, h]

theorem sound?_of_name (h : s.sounds.get? key = none) :
    s.sound? key = s.sounds.values.find? fun x => eqIgnoringAsciiCase x.name key := by
  rw [sound?, h]

theorem Unambiguous.reproducible (hs : Shelved s.sounds) (h : s.Unambiguous key) :
    s.Reproducible key := by
  intro t order
  have ids : (s.withSounds t).sounds.get? key = s.sounds.get? key :=
    Table.get?_perm hs.once order key
  cases found : s.sounds.get? key with
  | some x => rw [sound?_of_id found, sound?_of_id (ids.trans found)]
  | none =>
    have names := h.resolve_left (by rw [Table.contains, found]; exact Bool.false_ne_true)
    rw [sound?_of_name found, sound?_of_name (ids.trans found)]
    exact List.find?_perm_of_unique (order.map Prod.snd) fun x hx y hy px py =>
      hs.eq_of_id hx hy (names x hx y hy px py)

/-- A sound that bears a name is the one found if it is listed first. -/
theorem exists_order {x : BlockStage.Sound} (hx : x ∈ s.sounds.values)
    (missing : s.sounds.get? key = none) (hs : Shelved s.sounds)
    (bears : eqIgnoringAsciiCase x.name key = true) :
    ∃ t : Table String BlockStage.Sound, t.entries.Perm s.sounds.entries ∧
      (s.withSounds t).sound? key = some x := by
  obtain ⟨⟨k, x⟩, he, rfl⟩ := List.mem_map.mp hx
  obtain ⟨front, behind, split⟩ := List.append_of_mem he
  have order : ((k, x) :: (front ++ behind)).Perm s.sounds.entries := split ▸ List.perm_middle.symm
  refine ⟨⟨(k, x) :: (front ++ behind)⟩, order, ?_⟩
  have ids : (s.withSounds ⟨(k, x) :: (front ++ behind)⟩).sounds.get? key = none :=
    (Table.get?_perm hs.once order key).trans missing
  rw [sound?_of_name ids]
  exact List.find?_cons_of_pos bears

/-- **When the look-up of a sound is reproducible.** -/
theorem reproducible_iff (hs : Shelved s.sounds) (key : String) :
    s.Reproducible key ↔ s.Unambiguous key := by
  refine ⟨fun same => ?_, fun h => h.reproducible hs⟩
  cases found : s.sounds.get? key with
  | some x => exact .inl (by rw [Table.contains, found]; rfl)
  | none =>
    refine .inr fun x hx y hy px py => ?_
    obtain ⟨t, order, first⟩ := exists_order hx found hs px
    obtain ⟨u, other, second⟩ := exists_order hy found hs py
    have alike := (first.symm.trans (same t order)).trans ((same u other).symm.trans second)
    rw [Option.some.inj alike]

/-! ## Playing -/

/-- An outcome in a session with other sounds. -/
def Resounded (t : Table String BlockStage.Sound) {α : Type} :
    EStateM.Result Fault Session α → EStateM.Result Fault Session α
  | .ok a s => .ok a (s.withSounds t)
  | .error e s => .error e (s.withSounds t)

/-- Playing does the same in both sessions if the sound found is the same. -/
theorem playSound_withSounds {t : Table String BlockStage.Sound} (id : String)
    (same : (s.withSounds t).sound? key = s.sound? key) :
    Play.playSound id key (s.withSounds t) = Resounded t (Play.playSound id key s) := by
  cases found : s.sound? key with
  | none =>
    rw [Play.playSound_of_none found, Play.playSound_of_none (same.trans found)]
    rfl
  | some x =>
    rw [Play.playSound_of_some id found, Play.playSound_of_some id (same.trans found)]
    have player : (s.withSounds t).player.play id x (s.withSounds t).now
        = s.player.play id x s.now := rfl
    rw [player]
    cases (s.player.play id x s.now).1 with
    | ok a => rfl
    | error e => rfl

/-- **Playing is reproducible** for the id of a sound and for a name that one sound bears at most, and
    for no other key. -/
theorem sounds_reproducible (hs : Shelved s.sounds) :
    (∀ key, s.Reproducible key ↔ s.Unambiguous key) ∧
      ∀ key, s.Unambiguous key → ∀ t : Table String BlockStage.Sound,
        t.entries.Perm s.sounds.entries → ∀ id,
        Play.playSound id key (s.withSounds t) = Resounded t (Play.playSound id key s) :=
  ⟨reproducible_iff hs, fun _ h t order id => playSound_withSounds id (h.reproducible hs t order)⟩

/-- A session in which two sounds bear one name, and a third one bears another. -/
def echoing : Session :=
  (fresh .usual (Generator.ofSeed 0) 0).after
    [.register (Spawn.new "a"),
      .addSounds [⟨"x", "call", "", none, none, none⟩, ⟨"y", "Call", "", none, none, none⟩,
        ⟨"z", "answer", "", none, none, none⟩]]

theorem shelved_echoing : Shelved echoing.sounds :=
  shelved_of_visited ((Visited.fresh _ _ _).after _)

/-- Both ids and the other name are played reproducibly. -/
theorem reproducible_echoing :
    echoing.Reproducible "x" ∧ echoing.Reproducible "y" ∧ echoing.Reproducible "answer" := by
  have iff := (sounds_reproducible shelved_echoing).1
  refine ⟨(iff _).mpr (.inl (by decide +kernel)), (iff _).mpr (.inl (by decide +kernel)),
    (iff _).mpr (.inr ?_)⟩
  have named : (echoing.sounds.values.filter fun x => eqIgnoringAsciiCase x.name "answer").map
      BlockStage.Sound.id = ["z"] := by decide +kernel
  have only (x : BlockStage.Sound) (hx : x ∈ echoing.sounds.values)
      (bears : eqIgnoringAsciiCase x.name "answer" = true) : x.id = "z" :=
    List.mem_singleton.mp (named ▸ List.mem_map_of_mem (List.mem_filter.mpr ⟨hx, bears⟩))
  exact fun x hx y hy px py => (only x hx px).trans (only y hy py).symm

/-- Which of two sounds of one name is found depends on the order. -/
theorem not_reproducible_echoing :
    ¬∀ s : Session, Shelved s.sounds → ∀ key, s.Reproducible key := by
  intro same
  have found := same echoing shelved_echoing "call"
    ⟨echoing.sounds.entries.reverse⟩ (List.reverse_perm _)
  have first : (echoing.sound? "call").map BlockStage.Sound.id = some "x" := by decide +kernel
  have last : ((echoing.withSounds ⟨echoing.sounds.entries.reverse⟩).sound? "call").map
      BlockStage.Sound.id = some "y" := by decide +kernel
  rw [found, first] at last
  revert last
  decide

end Session

end BlockStage
