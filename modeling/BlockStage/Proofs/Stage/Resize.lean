/-
  Resizing: a canvas of another size, on which everyone keeps the place in user space.

  1. **Specification** — user space has its origin in the middle of the canvas, so whoever keeps the
     place there moves in pixels as the middle does (`Canvas.toUser_add_middle`).

  2. **What is moved** — only the stored placements of actors without a parent, each of them once
     (`drifts_resizeCanvas`), since an id leads to one actor and an actor bears one id.

  3. **The crux (`Chain.moved`)** — the frames of a chain are composed from the inside out, and the
     outermost adds its offset last.  So whoever has it at the end of the chain is moved as far as it
     is, however the frames in between are turned and scaled.

  4. **The result (`kept_of_resizeCanvas`)** — with exact arithmetic, and as long as everyone's whole
     chain is seen.
-/
import BlockStage.Proofs.Stage.Reframe

namespace BlockStage

/-- A placement farther on. -/
def Placement.shifted {α : Type} [Scalar α] (d : Vec α) (p : Placement α) : Placement α :=
  { p with offset := p.offset + d }

/-- **User space moves with the middle of the canvas.** -/
theorem Canvas.toUser_add_middle (c c' : Canvas ℝ) (v : Vec ℝ) :
    c'.toUser (v + (c'.middle - c.middle)) = c.toUser v := by
  show Vec.mk
      (v.x + (c'.width * Scalar.half - c.width * Scalar.half) - c'.width * Scalar.half)
      (c'.height * Scalar.half - (v.y + (c'.height * Scalar.half - c.height * Scalar.half)))
    = Vec.mk (v.x - c.width * Scalar.half) (c.height * Scalar.half - v.y)
  exact congrArg₂ Vec.mk (by ring) (by ring)

/-- A point of user space is found again from its pixel. -/
theorem Canvas.toUser_toPixels (c : Canvas ℝ) (v : Vec ℝ) : c.toUser (c.toPixels v) = v := by
  show Vec.mk (v.x + c.width * Scalar.half - c.width * Scalar.half)
    (c.height * Scalar.half - (c.height * Scalar.half - v.y)) = v
  exact congrArg₂ Vec.mk (by ring) (by ring)

namespace Stage

variable {α : Type} {s t : Stage α}

/-! ## The roots -/

/-- Each actor without a parent is listed once, and nobody else is. -/
theorem Orderly.nodup_rootHandles (hs : s.Orderly) : s.rootHandles.Nodup := by
  refine List.Nodup.filter _ (List.Nodup.filterMap (fun id id' h found found' => ?_) hs.ids)
  -- an actor bears one id
  obtain ⟨a, ha, rfl⟩ := hs.bears id h found
  obtain ⟨b, hb, rfl⟩ := hs.bears id' h found'
  rw [Option.some.inj (ha.symm.trans hb)]

theorem Orderly.mem_rootHandles_iff (hs : s.Orderly) {h : Handle} {up : Option Handle}
    {p : Placement α} (seat : s.seat? h = some (up, p)) : h ∈ s.rootHandles ↔ up = none := by
  have parent := parent?_of_seat seat
  obtain ⟨a, ha, -⟩ := Option.map_eq_some_iff.mp seat
  have found := hs.named h a ha
  have listed : h ∈ s.handles :=
    List.mem_filterMap.mpr ⟨a.id, hs.mem_ids.mpr ⟨h, found⟩, found⟩
  rw [rootHandles, List.mem_filter, parent, Option.isNone_iff_eq_none]
  exact and_iff_right listed

/-! ## What is moved -/

section
variable [Scalar α]

theorem seat?_shift (d : Vec α) (s : Stage α) (h x : Handle) :
    (shift d s h).seat? x
      = if x = h then (s.seat? h).map fun seat => (seat.1, seat.2.shifted d) else s.seat? x := by
  refine (seat?_carryBody _ h x).trans ?_
  rw [seat?, actor?_modify]
  by_cases same : x = h
  · rw [if_pos (beq_iff_eq.mpr same), if_pos same, seat?, Option.map_map, Option.map_map]
    rfl
  · rw [if_neg fun k => same (eq_of_beq k), if_neg same]
    rfl

/-- Whoever is on a list without repetition is moved once. -/
theorem seat?_foldl_shift (d : Vec α) {l : List Handle} (once : l.Nodup) (s : Stage α) (x : Handle) :
    (l.foldl (shift d) s).seat? x
      = if x ∈ l then (s.seat? x).map fun seat => (seat.1, seat.2.shifted d) else s.seat? x := by
  induction l generalizing s with
  | nil => rfl
  | cons h l ih =>
    obtain ⟨absent, rest⟩ := List.nodup_cons.mp once
    rw [List.foldl_cons, ih rest, seat?_shift]
    by_cases same : x = h
    · rw [if_neg (same ▸ absent), if_pos same, if_pos (same ▸ List.mem_cons_self), same]
    · rw [if_neg same]
      exact if_congr (by rw [List.mem_cons, or_iff_right same]) rfl rfl

/-- Whoever has no parent has gone that far, and nobody else is seated otherwise than before. -/
def Drifts (d : Vec α) (s t : Stage α) : Prop :=
  ∀ x up p, s.seat? x = some (up, p) →
    t.seat? x = some (up, if up = none then p.shifted d else p)

/-- **What resizing moves**: everyone without a parent, as the middle of the canvas does. -/
theorem drifts_resizeCanvas (hs : s.Orderly) {width height : α}
    (done : (s.resizeCanvas width height).1 = true) :
    Drifts (Canvas.middle ⟨width, height⟩ - s.canvas.middle) s (s.resizeCanvas width height).2 := by
  by_cases flat : (Scalar.lessEq width Scalar.zero || Scalar.lessEq height Scalar.zero) = true
  · rw [resizeCanvas, if_pos flat] at done
    cases done
  · intro x up p seat
    rw [resizeCanvas, if_neg flat]
    refine (seat?_foldl_shift _ hs.nodup_rootHandles { s with canvas := ⟨width, height⟩ } x).trans ?_
    have same : ({ s with canvas := ⟨width, height⟩ } : Stage α).seat? x = some (up, p) := seat
    rw [same]
    by_cases root : up = none
    · rw [if_pos ((hs.mem_rootHandles_iff seat).mpr root), if_pos root]
      rfl
    · rw [if_neg fun listed => root ((hs.mem_rootHandles_iff seat).mp listed), if_neg root]

theorem canvas_foldl_shift (d : Vec α) (l : List Handle) (s : Stage α) :
    (l.foldl (shift d) s).canvas = s.canvas := by
  induction l generalizing s with
  | nil => rfl
  | cons h l ih =>
    rw [List.foldl_cons, ih, shift, carryBody]
    split <;> rfl

theorem canvas_resizeCanvas {width height : α} (done : (s.resizeCanvas width height).1 = true) :
    (s.resizeCanvas width height).2.canvas = ⟨width, height⟩ := by
  rw [resizeCanvas] at done ⊢
  split at done
  · cases done
  · rename_i positive
    rw [if_neg positive]
    exact canvas_foldl_shift _ s.rootHandles { s with canvas := ⟨width, height⟩ }

theorem isSome_world?_resizeCanvas (s : Stage α) (width height : α) (h : Handle) :
    ((s.resizeCanvas width height).2.world? h).isSome = (s.world? h).isSome := by
  have kept := (s.calm_resizeCanvas width height).role h
  rw [isSome_world?, isSome_world?, ← Option.isSome_map (f := Actor.role), kept, Option.isSome_map]

theorem isSome_body?_resizeCanvas (s : Stage α) (width height : α) (h : Handle) :
    ((s.resizeCanvas width height).2.body? h).isSome = (s.body? h).isSome := by
  rcases overlooks_ties.resizeCanvas s width height with ⟨-, same⟩ | ⟨-, u, seen, resized⟩
  · rw [same]
  · have kept : (s.resizeCanvas width height).2.chart h = s.chart h := by
      rw [resized]
      exact seen.sameTies.chart h
    rw [← Option.isSome_map (f := Body.keys), ← Option.isSome_map (f := Body.keys)]
    exact congrArg Option.isSome kept

end

/-! ## The way the outermost frame goes -/

section
variable {s t : Stage ℝ} {d : Vec ℝ}

theorem shifted_compose (frame p : Placement ℝ) :
    (frame.shifted d).compose p = (frame.compose p).shifted d := by
  have offset : frame.offset + d + frame.bend p.offset = frame.offset + frame.bend p.offset + d :=
    add_right_comm frame.offset d (frame.bend p.offset)
  show Placement.mk (frame.offset + d + frame.bend p.offset) _ _ = Placement.mk _ _ _
  rw [offset]
  rfl

/-- **Whoever is attached goes where the outermost frame goes.** -/
theorem Chain.moved {link : Option Handle} {l : List (Placement ℝ)} (c : s.Chain link l)
    (attached : link ≠ none) (drifts : Drifts d s t) :
    ∃ k, t.Chain link k ∧ k.length = l.length ∧
      ∀ p : Placement ℝ, p.outOf k = (p.outOf l).shifted d := by
  induction c with
  | root => exact absurd rfl attached
  | @link h up frame l seat rest ih =>
    have now := drifts h up frame seat
    cases up with
    | none =>
      cases rest
      rw [if_pos rfl] at now
      exact ⟨[frame.shifted d], .link now .root, rfl, fun p => shifted_compose frame p⟩
    | some parent =>
      have other : some parent ≠ none := Option.some_ne_none parent
      rw [if_neg other] at now
      obtain ⟨k, above, length, carried⟩ := ih other
      exact ⟨frame :: k, .link now above, congrArg (· + 1) length,
        fun p => carried (frame.compose p)⟩

/-- Everyone whose whole chain is seen goes there too. -/
theorem world?_moved (linked : s.Linked) (flat : s.Levels (linkLimit + 1)) (drifts : Drifts d s t)
    {h : Handle} {w : Placement ℝ} (hw : s.world? h = some w) : t.world? h = some (w.shifted d) := by
  obtain ⟨⟨up, p⟩, seat, -⟩ := Option.map_eq_some_iff.mp ((world?_eq_seat s h).symm.trans hw)
  have now := drifts h up p seat
  have link := parent?_of_seat seat
  have ended := flat h
  rw [above, link] at ended
  obtain ⟨l, c⟩ := chain_of_above linked (fun x hx => linked.parent_live (link.trans hx)) ended
  have short := (c.length_le_iff linkLimit).mpr ended
  obtain rfl := Option.some.inj (hw.symm.trans (c.world?_eq_of_le seat short))
  by_cases root : up = none
  · rw [if_pos root, root] at now
    rw [root] at c
    cases c
    exact Chain.root.world?_eq_of_le now (Nat.zero_le _)
  · rw [if_neg root] at now
    obtain ⟨k, way, length, carried⟩ := c.moved root drifts
    rw [way.world?_eq_of_le now (length ▸ short), carried]

/-! ## The result -/

theorem resizeCanvas_done (s : Stage ℝ) {width height : ℝ} (wide : 0 < width) (high : 0 < height) :
    (s.resizeCanvas width height).1 = true := by
  have zero : (Scalar.zero : ℝ) = 0 := by
    show ((0 : ℤ) : ℝ) / ((1 : ℕ) : ℝ) = 0
    norm_num
  have positive : ¬(Scalar.lessEq width Scalar.zero || Scalar.lessEq height Scalar.zero) = true := by
    rw [zero, Bool.or_eq_true, not_or]
    exact ⟨fun le => absurd (of_decide_eq_true le) (not_le.mpr wide),
      fun le => absurd (of_decide_eq_true le) (not_le.mpr high)⟩
  rw [resizeCanvas, if_neg positive]

/-- **Resizing the canvas keeps everyone in place.**  Arithmetic being exact, and nobody having more
    ancestors than placements are composed with, a canvas can be given any positive size; everyone
    is then where it was in user space, attached or not, and the body of everyone who is not
    attached is where its actor has gone in pixels. -/
theorem kept_of_resizeCanvas (hs : s.Reached) (flat : s.Levels (linkLimit + 1)) {width height : ℝ}
    (wide : 0 < width) (high : 0 < height) :
    (s.resizeCanvas width height).1 = true ∧
      (s.resizeCanvas width height).2.canvas = ⟨width, height⟩ ∧
      (∀ h, (s.resizeCanvas width height).2.position? h = s.position? h) ∧
      ∀ h b, s.parent? h = none → s.body? h = some b →
        ∃ b' w, (s.resizeCanvas width height).2.body? h = some b' ∧
          (s.resizeCanvas width height).2.world? h = some w ∧ b'.center = w.offset := by
  have done := s.resizeCanvas_done wide high
  have canvas := canvas_resizeCanvas done
  have tied := hs.tied
  have drifts := drifts_resizeCanvas tied.orderly done
  refine ⟨done, canvas, fun h => ?_, fun h b root embodied => ?_⟩
  · rw [position?, position?, canvas]
    cases hw : s.world? h with
    | none =>
      -- whoever is gone stays gone
      have there := s.isSome_world?_resizeCanvas width height h
      rw [hw, Option.isSome_none] at there
      rw [Option.not_isSome_iff_eq_none.mp (Bool.eq_false_iff.mp there)]
      rfl
    | some w =>
      rw [world?_moved tied.linked flat drifts hw, Option.map_some, Option.map_some]
      exact congrArg some (s.canvas.toUser_add_middle ⟨width, height⟩ w.offset)
  · obtain ⟨b', hb'⟩ := Option.isSome_iff_exists.mp
      ((s.isSome_body?_resizeCanvas width height h).trans (embodied ▸ rfl))
    obtain ⟨a', ha', body⟩ := Option.bind_eq_some_iff.mp hb'
    obtain ⟨a, ha, -⟩ := Option.bind_eq_some_iff.mp embodied
    have seat : s.seat? h = some (none, a.placement) := by
      rw [parent?, ha, Option.bind_some] at root
      rw [seat?, ha, Option.map_some, Actor.seat, root]
    have now := drifts h none a.placement seat
    have free : a'.parent = none := by
      have same := parent?_of_seat now
      rw [parent?, ha', Option.bind_some] at same
      exact same
    obtain ⟨w, hw⟩ := Option.isSome_iff_exists.mp
      ((isSome_world? (s.resizeCanvas width height).2 h).trans (ha' ▸ rfl))
    -- whoever is moved takes the body along
    have placed := all_resizeCanvas Actor.poised_placed hs.placed width height h trivial a' ha' free
    refine ⟨b', w, hb', hw, ?_⟩
    rw [placed b' body, eq_placement_of_world? ha' hw free]

end

/-- The three actors of whom one is turned in a broad frame, and the broad one has a body. -/
noncomputable def bodied : Stage ℝ := (nested.enablePhysics 0 .usual).2

/-- On a canvas of another size the second is in the middle of user space as before, and the body of
    the first has gone where the first has. -/
theorem kept_of_resizeCanvas_bodied :
    bodied.Reached ∧ bodied.Levels (linkLimit + 1) ∧ (0 : ℝ) < 1000 ∧ (0 : ℝ) < 500 ∧
      (bodied.resizeCanvas 1000 500).2.position? 1 = some ⟨0, 0⟩ ∧
      ∃ b w, (bodied.resizeCanvas 1000 500).2.body? 0 = some b ∧
        (bodied.resizeCanvas 1000 500).2.world? 0 = some w ∧ b.center = w.offset := by
  have reached : bodied.Reached := reached_nested.op (.enablePhysics 0 .usual)
  have flat : bodied.Levels (linkLimit + 1) :=
    ((trims_enablePhysics nested 0 .usual).levels fun h => levels_nested.above (Nat.le_succ _) h)
  have wide : (0 : ℝ) < 1000 := by norm_num
  have high : (0 : ℝ) < 500 := by norm_num
  obtain ⟨-, -, kept, bodies⟩ := kept_of_resizeCanvas reached flat wide high
  refine ⟨reached, flat, wide, high, ?_, ?_⟩
  · have way : bodied.Chain (some 1) [turned, broad] :=
      chain_turned.congr fun _ x _ => nested.seat?_enablePhysics 0 .usual x
    rw [kept, position?, world?_eq_frameOf way (by decide), frameOf_turned]
    have middle : hall.canvas.toUser (hall.canvas.toPixels ⟨(0 : ℤ), 0⟩) = ⟨0, 0⟩ := by
      rw [Canvas.toUser_toPixels, Int.cast_zero]
    exact congrArg some middle
  · exact bodies 0 _ rfl rfl

end Stage

end BlockStage
