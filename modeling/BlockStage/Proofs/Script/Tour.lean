/-
  Tours: how much of a script one slice can run.

  1. **Places** — the statements of a body, those within its branches and loops included, stand one
     after the other in its text (`Stmt.listings`).  A statement that occurs twice stands in two
     places.

  2. **Program** — `Host.tour` is the machine with the place noted down at which each frame ends.  It
     writes a visit into a log whenever it takes a statement, or takes up a loop again whose turn is
     over; without the notes it is `Host.run` (`Host.forget_tour`).

  3. **Specification (`Host.Brief`)** — the visits of a slice are to places further and further on in
     the text, each to the statement that stands there.  So no place is visited twice, and a slice
     takes no more statements than there are.

  4. **The crux (`Laid`)** — the frames of a stack lie one behind the other: each of them goes on
     behind the place at which the one before it ends.  The only way back is to the beginning of a
     loop, and a loop is taken up again only after a pause: a loop whose turn ends in a slice ends
     the slice too.
-/
import BlockStage.Script.Machine

namespace BlockStage

/-! ## Places -/

mutual

/-- A statement and all those within it, in the order of the text. -/
def Stmt.listing : Stmt → List Stmt
  | .action a => [.action a]
  | .forever loop body => [.forever loop body]
  | .waitUntil condition => [.waitUntil condition]
  | .branch condition yes none => .branch condition yes none :: Stmt.listings yes
  | .branch condition yes (some no) =>
    .branch condition yes (some no) :: (Stmt.listings yes ++ Stmt.listings no)
  | .repeatTimes times body => .repeatTimes times body :: Stmt.listings body
  | .repeatUntil condition body => .repeatUntil condition body :: Stmt.listings body
  | .forEach name count body => .forEach name count body :: Stmt.listings body

/-- The statements of a body, in the order of the text. -/
def Stmt.listings : List Stmt → List Stmt
  | [] => []
  | s :: rest => s.listing ++ Stmt.listings rest

end

namespace Stmt

/-- The body of a loop. -/
def loopBody? : Stmt → Option (List Stmt)
  | .repeatTimes _ body => some body
  | .repeatUntil _ body => some body
  | .forEach _ _ body => some body
  | _ => none

theorem listing_of_loopBody? {s : Stmt} {body : List Stmt} (h : s.loopBody? = some body) :
    s.listing = s :: listings body := by
  cases s with
  | repeatTimes | repeatUntil | forEach =>
    cases h
    rfl
  | _ => cases h

/-- A statement stands before all that is within it. -/
theorem listing_eq_cons (s : Stmt) : ∃ inner, s.listing = s :: inner := by
  cases s with
  | branch condition yes no => cases no <;> exact ⟨_, rfl⟩
  | _ => exact ⟨_, rfl⟩

/-- How far a statement reaches on, up to the end of the body that is entered. -/
def reach : Stmt → Outcome → Nat
  | .branch _ yes _, .first => 1 + (listings yes).length
  | s, _ => s.listing.length

end Stmt

/-- A part of a text that ends at a place. -/
def EndsAt (text : List Stmt) (stop : Nat) (part : List Stmt) : Prop :=
  ∃ before after, text = before ++ part ++ after ∧ stop = before.length + part.length

namespace EndsAt

variable {text part more : List Stmt} {stop : Nat}

theorem back (h : EndsAt text stop (part ++ more)) : EndsAt text stop more := by
  obtain ⟨before, after, rfl, rfl⟩ := h
  exact ⟨before ++ part, after, by simp only [List.append_assoc],
    by simp only [List.length_append]; omega⟩

theorem front (h : EndsAt text stop (part ++ more)) : EndsAt text (stop - more.length) part := by
  obtain ⟨before, after, rfl, rfl⟩ := h
  exact ⟨before, more ++ after, by simp only [List.append_assoc],
    by simp only [List.length_append]; omega⟩

theorem length_le (h : EndsAt text stop part) : part.length ≤ stop := by
  obtain ⟨before, after, -, rfl⟩ := h
  exact Nat.le_add_left _ _

/-- What stands where the part begins. -/
theorem head {s : Stmt} (h : EndsAt text stop (s :: part)) :
    text[stop - (s :: part).length]? = some s := by
  obtain ⟨before, after, rfl, rfl⟩ := h
  rw [Nat.add_sub_cancel, List.append_assoc, List.getElem?_append_right (Nat.le_refl _), Nat.sub_self]
  rfl

end EndsAt

/-! ## Frames and where they end -/

/-- How many places a frame has ahead: the statements to come, and first the loop itself if its turn
    is over. -/
def Frame.ahead : Frame → Nat
  | .sequence rest => (Stmt.listings rest).length
  | .loop _ _ rest => (Stmt.listings rest).length
  | .turned _ body => (Stmt.listings body).length + 1

/-- A frame that has no statement to take is over, or at the beginning or the end of a turn. -/
theorem Frame.cases_of_take? {f : Frame} (ht : f.take? = none) :
    (∃ rest, f = .sequence rest) ∨ (∃ kind body, f = .loop kind body []) ∨
      ∃ kind body, f = .turned kind body := by
  cases f with
  | sequence rest => exact .inl ⟨rest, rfl⟩
  | loop kind body rest =>
    cases rest with
    | nil => exact .inr (.inl ⟨kind, body, rfl⟩)
    | cons s rest => cases ht
  | turned kind body => exact .inr (.inr ⟨kind, body, rfl⟩)

/-- A frame, and the place at which its body ends. -/
structure Post where
  frame : Frame
  stop : Nat

namespace Post

/-- The place at which a frame goes on. -/
def next (p : Post) : Nat := p.stop - p.frame.ahead

/-- Does a loop with this body end at a place of a text? -/
def Circles (text : List Stmt) (stop : Nat) (body : List Stmt) : Prop :=
  ∃ s : Stmt, s.loopBody? = some body ∧ EndsAt text stop s.listing

/-- Is this what stands in the text up to the place at which the frame ends? -/
def Fits (text : List Stmt) (p : Post) : Prop :=
  match p.frame with
  | .sequence rest => EndsAt text p.stop (Stmt.listings rest)
  | .loop _ body rest => EndsAt text p.stop (Stmt.listings rest) ∧ Circles text p.stop body
  | .turned _ body => Circles text p.stop body

variable {text : List Stmt} {p : Post} {s : Stmt} {g : Frame}

theorem next_le (p : Post) : p.next ≤ p.stop := Nat.sub_le _ _

/-- A loop that begins its next turn stands where the last one has ended. -/
theorem Circles.body {stop : Nat} {body : List Stmt} (h : Circles text stop body) :
    EndsAt text stop (Stmt.listings body) := by
  obtain ⟨s, loop, ends⟩ := h
  rw [Stmt.listing_of_loopBody? loop] at ends
  have whole : EndsAt text stop ([s] ++ Stmt.listings body) := ends
  exact whole.back

/-- What a frame comes to next, and how far that reaches on. -/
structure Takes (text : List Stmt) (p : Post) (s : Stmt) (g : Frame) : Prop where
  whole : EndsAt text (p.next + s.listing.length) s.listing
  fits : Fits text ⟨g, p.stop⟩
  next : next ⟨g, p.stop⟩ = p.next + s.listing.length

/-- A statement that is taken from a frame stands where the frame goes on. -/
theorem takes_of_take? (h : p.Fits text) (ht : p.frame.take? = some (s, g)) : Takes text p s g := by
  have divided {rest : List Stmt} (ends : EndsAt text p.stop (s.listing ++ Stmt.listings rest))
      (ahead : p.frame.ahead = (s.listing ++ Stmt.listings rest).length) :
      p.next + s.listing.length = p.stop - (Stmt.listings rest).length := by
    have room := ends.length_le
    rw [List.length_append] at ahead room
    rw [Post.next, ahead]
    omega
  obtain ⟨frame, stop⟩ := p
  cases frame with
  | sequence l =>
    cases l with
    | nil => cases ht
    | cons a rest =>
      cases ht
      have ends : EndsAt text stop (s.listing ++ Stmt.listings rest) := h
      have far := divided ends rfl
      exact ⟨far ▸ ends.front, ends.back, far.symm⟩
  | loop kind body l =>
    cases l with
    | nil => cases ht
    | cons a rest =>
      cases ht
      have ends : EndsAt text stop (s.listing ++ Stmt.listings rest) := h.1
      have far := divided ends rfl
      exact ⟨far ▸ ends.front, ⟨ends.back, h.2⟩, far.symm⟩
  | turned kind body => cases ht

end Post

/-! ## Stacks -/

/-- Do the frames of a stack lie one behind the other, from a place on? -/
def Laid (text : List Stmt) : Nat → List Post → Prop
  | _, [] => True
  | start, p :: ps => start ≤ p.next ∧ p.Fits text ∧ Laid text p.stop ps

/-- The frames that a statement at a place leaves behind, and where they end. -/
def Stmt.enterAt (s : Stmt) (place : Nat) (o : Outcome) : List Post :=
  (s.enter o).map fun f => ⟨f, place + s.reach o⟩

theorem Stmt.frames_enterAt (s : Stmt) (place : Nat) (o : Outcome) :
    (s.enterAt place o).map Post.frame = s.enter o := by
  rw [enterAt, List.map_map]
  exact List.map_id _

/-- A stack on which a statement has been taken and entered is lighter. -/
theorem Stmt.weights_enterAt {f g : Frame} {s : Stmt} (ht : f.take? = some (s, g)) {place stop : Nat}
    {o : Outcome} {ps : List Post} :
    Frame.weights ((s.enterAt place o ++ ⟨g, stop⟩ :: ps).map Post.frame)
      < Frame.weights ((⟨f, stop⟩ :: ps).map Post.frame) := by
  rw [List.map_append, List.map_cons, List.map_cons, Stmt.frames_enterAt]
  exact Frame.weights_enter_lt ht o (ps.map Post.frame)

namespace Laid

variable {text : List Stmt} {start : Nat} {ps : List Post}

theorem mono {later : Nat} (le : start ≤ later) (h : Laid text later ps) : Laid text start ps := by
  cases ps with
  | nil => trivial
  | cons p ps => exact ⟨Nat.le_trans le h.1, h.2⟩

/-- A stack with a body on it that begins behind a place. -/
theorem push {f : Frame} {place stop : Nat} (far : place + 1 + f.ahead ≤ stop)
    (fits : Post.Fits text ⟨f, stop⟩) (rest : Laid text stop ps) :
    Laid text (place + 1) (⟨f, stop⟩ :: ps) := by
  refine ⟨?_, fits, rest⟩
  rw [Post.next]
  exact Nat.le_sub_of_add_le far

section Entering

variable {s : Stmt} {place : Nat}

/-- What comes after a statement lies behind the place at which it stands. -/
theorem skipped (rest : Laid text (place + s.listing.length) ps) : Laid text (place + 1) ps := by
  obtain ⟨inner, eq⟩ := s.listing_eq_cons
  refine rest.mono ?_
  rw [eq, List.length_cons]
  omega

/-- The body of a loop is all that is within it. -/
theorem looped (whole : EndsAt text (place + s.listing.length) s.listing)
    (rest : Laid text (place + s.listing.length) ps) {body : List Stmt}
    (loop : s.loopBody? = some body) (kind : Loop) :
    Laid text (place + 1) (⟨.loop kind body body, place + s.listing.length⟩ :: ps) := by
  have circles : Post.Circles text (place + s.listing.length) body := ⟨s, loop, whole⟩
  refine push ?_ ⟨circles.body, circles⟩ rest
  rw [Frame.ahead, Stmt.listing_of_loopBody? loop, List.length_cons]
  omega

/-- A body that comes first within a statement, and before the rest of it. -/
theorem first {yes other : List Stmt} (eq : s.listing = s :: (Stmt.listings yes ++ other))
    (whole : EndsAt text (place + s.listing.length) s.listing)
    (rest : Laid text (place + s.listing.length) ps) :
    Laid text (place + 1) (⟨.sequence yes, place + (1 + (Stmt.listings yes).length)⟩ :: ps) := by
  have length : s.listing.length = (Stmt.listings yes).length + other.length + 1 := by
    rw [eq, List.length_cons, List.length_append]
  have ends : EndsAt text (place + (1 + (Stmt.listings yes).length)) (Stmt.listings yes) := by
    rw [eq] at whole
    have tested : EndsAt text _ ([s] ++ (Stmt.listings yes ++ other)) := whole
    have front := tested.back.front
    rw [List.length_cons, List.length_append] at front
    rwa [show place + ((Stmt.listings yes).length + other.length + 1) - other.length
      = place + (1 + (Stmt.listings yes).length) by omega] at front
  refine push ?_ ends (rest.mono (by omega))
  rw [Frame.ahead]
  omega

/-- A body that comes last within a statement. -/
theorem last {no other : List Stmt} (eq : s.listing = s :: (other ++ Stmt.listings no))
    (whole : EndsAt text (place + s.listing.length) s.listing)
    (rest : Laid text (place + s.listing.length) ps) :
    Laid text (place + 1) (⟨.sequence no, place + s.listing.length⟩ :: ps) := by
  have tested : EndsAt text (place + s.listing.length) ((s :: other) ++ Stmt.listings no) := by
    rw [List.cons_append, ← eq]
    exact whole
  refine push ?_ tested.back rest
  rw [Frame.ahead, eq, List.length_cons, List.length_append]
  omega

/-- **What a statement leaves behind lies behind it**, and before what comes after the statement. -/
theorem enterAt (whole : EndsAt text (place + s.listing.length) s.listing)
    (rest : Laid text (place + s.listing.length) ps) (o : Outcome) :
    Laid text (place + 1) (s.enterAt place o ++ ps) := by
  cases s with
  | branch condition yes no =>
    cases o with
    | first =>
      cases no with
      | none =>
        have alone : (Stmt.branch condition yes none).listing
            = .branch condition yes none :: (Stmt.listings yes ++ []) := by
          rw [Stmt.listing, List.append_nil]
        exact first alone whole rest
      | some no => exact first rfl whole rest
    | second =>
      cases no with
      | none => exact skipped rest
      | some no => exact last rfl whole rest
    | _ => cases no <;> exact skipped rest
  | repeatTimes times body =>
    cases o with
    | turns n => exact looped whole rest rfl _
    | _ => exact skipped rest
  | repeatUntil condition body =>
    cases o with
    | turns n => exact looped whole rest rfl _
    | _ => exact skipped rest
  | forEach name count body =>
    cases o with
    | turns n => exact looped whole rest rfl _
    | _ => exact skipped rest
  | _ => exact skipped rest

end Entering

end Laid

/-! ## Visits -/

/-- What is noted down about a slice: that it takes a statement, or that it takes up a loop again to
    decide about another turn. -/
inductive Visit where
  | taken (place : Nat) (s : Stmt)
  | takenUp (place : Nat) (body : List Stmt)

namespace Visit

/-- The place of the statement, or of the loop. -/
def place : Visit → Nat
  | taken place _ => place
  | takenUp place _ => place

/-- Does the text have this statement, or a loop with this body, at the place? -/
def Stands (text : List Stmt) : Visit → Prop
  | taken place s => text[place]? = some s
  | takenUp place body => ∃ s, text[place]? = some s ∧ s.loopBody? = some body

theorem place_lt {text : List Stmt} {v : Visit} (h : v.Stands text) : v.place < text.length := by
  cases v with
  | taken place s => exact (List.getElem?_eq_some_iff.mp h).1
  | takenUp place body =>
    obtain ⟨s, there, -⟩ := h
    exact (List.getElem?_eq_some_iff.mp there).1

end Visit

/-- Do visits lead further and further on in a text, from a place on? -/
def Onward (text : List Stmt) : Nat → List Visit → Prop
  | _, [] => True
  | start, v :: vs => start ≤ v.place ∧ v.Stands text ∧ Onward text (v.place + 1) vs

namespace Onward

variable {text : List Stmt} {vs : List Visit}

theorem stands {start : Nat} (h : Onward text start vs) : ∀ v ∈ vs, start ≤ v.place ∧ v.Stands text := by
  induction vs generalizing start with
  | nil => exact fun _ hv => (List.not_mem_nil hv).elim
  | cons first rest ih =>
    obtain ⟨le, there, later⟩ := h
    refine List.forall_mem_cons.mpr ⟨⟨le, there⟩, fun v hv => ?_⟩
    have := ih later v hv
    exact ⟨by omega, this.2⟩

/-- **No place is visited twice.** -/
theorem pairwise {start : Nat} (h : Onward text start vs) :
    (vs.map Visit.place).Pairwise (· < ·) := by
  induction vs generalizing start with
  | nil => exact .nil
  | cons first rest ih =>
    refine List.pairwise_cons.mpr ⟨fun n hn => ?_, ih h.2.2⟩
    obtain ⟨v, hv, rfl⟩ := List.mem_map.mp hn
    exact (stands h.2.2 v hv).1

/-- There are no more visits than places ahead. -/
theorem length_le {start : Nat} (h : Onward text start vs) : vs.length ≤ text.length - start := by
  induction vs generalizing start with
  | nil => exact Nat.zero_le _
  | cons first rest ih =>
    have later := ih h.2.2
    have le := h.1
    have inside := Visit.place_lt h.2.1
    rw [List.length_cons]
    omega

end Onward

/-! ## Tours -/

section
variable {ε σ α β : Type}

/-- A step with a log beside it that it does not touch. -/
def beside (x : EStateM ε σ α) : EStateM ε (σ × List Visit) α := fun s =>
  match x s.1 with
  | .ok a t => .ok a (t, s.2)
  | .error e t => .error e (t, s.2)

/-- Writes a visit into the log. -/
def visit (v : Visit) : EStateM ε (σ × List Visit) Unit := fun s => .ok () (s.1, s.2 ++ [v])

/-- Runs a script as `Host.run` does, keeping track of the places. -/
def Host.tour (h : Host (EStateM ε σ)) (posts : List Post) :
    EStateM ε (σ × List Visit) (Option (List Post × Pause)) := do
  if !(← beside h.alive) then return none
  else
    match posts with
    | [] => return none
    | ⟨f, stop⟩ :: ps =>
      match _ht : f.take? with
      | some (s, g) =>
        visit (.taken (Post.next ⟨f, stop⟩) s)
        match ← beside (h.resolve s) with
        | .pause p => return some (⟨g, stop⟩ :: ps, p)
        | .finish => return none
        | o => h.tour (s.enterAt (Post.next ⟨f, stop⟩) o ++ ⟨g, stop⟩ :: ps)
      | none =>
        match f with
        | .sequence _ => h.tour ps
        | .loop kind body _ => return some (⟨.turned kind body, stop⟩ :: ps, .tick)
        | .turned kind body =>
          visit (.takenUp (Post.next ⟨.turned kind body, stop⟩) body)
          match ← beside (h.again kind) with
          | some kind => h.tour (⟨.loop kind body body, stop⟩ :: ps)
          | none => h.tour ps
termination_by Frame.weights (posts.map Post.frame)
decreasing_by
  · exact Stmt.weights_enterAt _ht
  all_goals simp [Frame.weights, Frame.weight]; try omega

variable {h : Host (EStateM ε σ)}

/-- A slice that takes a statement. -/
theorem Host.tour_take {f g : Frame} {s : Stmt} (ht : f.take? = some (s, g)) (stop : Nat)
    (ps : List Post) :
    h.tour (⟨f, stop⟩ :: ps) = (do
      if !(← beside h.alive) then return none
      else
        visit (.taken (Post.next ⟨f, stop⟩) s)
        match ← beside (h.resolve s) with
        | .pause p => return some (⟨g, stop⟩ :: ps, p)
        | .finish => return none
        | o => h.tour (s.enterAt (Post.next ⟨f, stop⟩) o ++ ⟨g, stop⟩ :: ps)) := by
  rw [Host.tour.eq_def]
  simp only
  split
  · rename_i s' g' ht'
    rw [ht] at ht'
    obtain ⟨rfl, rfl⟩ := ht'
    rfl
  · rename_i ht'
    rw [ht] at ht'
    contradiction

/-- A slice whose first frame has no statement left. -/
theorem Host.tour_over {f : Frame} (ht : f.take? = none) (stop : Nat) (ps : List Post) :
    h.tour (⟨f, stop⟩ :: ps) = (do
      if !(← beside h.alive) then return none
      else
        match f with
        | .sequence _ => h.tour ps
        | .loop kind body _ => return some (⟨.turned kind body, stop⟩ :: ps, .tick)
        | .turned kind body =>
          visit (.takenUp (Post.next ⟨.turned kind body, stop⟩) body)
          match ← beside (h.again kind) with
          | some kind => h.tour (⟨.loop kind body body, stop⟩ :: ps)
          | none => h.tour ps) := by
  rw [Host.tour.eq_def]
  simp only
  split
  · rename_i ht'
    rw [ht] at ht'
    contradiction
  · rfl

/-! ## What a tour notes down -/

/-- The state at the end of a step, also when it breaks off. -/
def ending : EStateM.Result ε σ α → σ
  | .ok _ t => t
  | .error _ t => t

/-- What a tour adds to the log leads onward, and a stack that is left lies as it should. -/
def Leads (text : List Stmt) (start : Nat)
    (c : EStateM ε (σ × List Visit) (Option (List Post × Pause))) : Prop :=
  ∀ s, (∃ seen, (ending (c s)).2 = s.2 ++ seen ∧ Onward text start seen) ∧
    ∀ posts p t, c s = .ok (some (posts, p)) t → Laid text 0 posts

namespace Leads

variable {text : List Stmt} {start : Nat}
  {c : EStateM ε (σ × List Visit) (Option (List Post × Pause))}

theorem ended : Leads text start (pure none : EStateM ε (σ × List Visit) _) :=
  fun s => ⟨⟨[], (List.append_nil _).symm, trivial⟩, fun _ _ _ h => (by cases h)⟩

theorem paused {posts : List Post} {p : Pause} (laid : Laid text 0 posts) :
    Leads text start (pure (some (posts, p)) : EStateM ε (σ × List Visit) _) :=
  fun s => ⟨⟨[], (List.append_nil _).symm, trivial⟩, fun _ _ _ h => (by cases h; exact laid)⟩

/-- A step that does not touch the log. -/
theorem beside {x : EStateM ε σ α}
    {f : α → EStateM ε (σ × List Visit) (Option (List Post × Pause))}
    (hf : ∀ a, Leads text start (f a)) : Leads text start (beside x >>= f) := by
  intro s
  cases hx : x s.1 with
  | ok a t =>
    have step : (BlockStage.beside x >>= f) s = f a (t, s.2) := by
      show EStateM.bind _ _ _ = _
      rw [EStateM.bind, BlockStage.beside, hx]
    rw [step]
    exact hf a (t, s.2)
  | error e t =>
    have step : (BlockStage.beside x >>= f) s = .error e (t, s.2) := by
      show EStateM.bind _ _ _ = _
      rw [EStateM.bind, BlockStage.beside, hx]
    rw [step]
    exact ⟨⟨[], (List.append_nil _).symm, trivial⟩, fun _ _ _ h => (by cases h)⟩

/-- A visit, and what leads on from behind its place. -/
theorem visit {v : Visit} {f : Unit → EStateM ε (σ × List Visit) (Option (List Post × Pause))}
    (le : start ≤ v.place) (there : v.Stands text) (hf : Leads text (v.place + 1) (f ())) :
    Leads text start (visit v >>= f) := by
  intro s
  obtain ⟨⟨seen, log, onward⟩, laid⟩ := hf (s.1, s.2 ++ [v])
  refine ⟨⟨v :: seen, ?_, le, there, onward⟩, laid⟩
  rw [List.append_cons]
  exact log

end Leads

/-- A statement that is taken stands where its frame goes on. -/
theorem Post.Takes.stands {text : List Stmt} {p : Post} {s : Stmt} {g : Frame}
    (takes : Takes text p s g) : (Visit.taken p.next s).Stands text := by
  obtain ⟨inner, eq⟩ := s.listing_eq_cons
  have head := (eq ▸ takes.whole).head
  rwa [← eq, Nat.add_sub_cancel] at head

/-- **A loop whose turn is over stands where it is taken up again**, and what comes after it lies
    behind that place, with another turn before it or without. -/
theorem Laid.takenUp {text : List Stmt} {body : List Stmt} {stop : Nat} {ps : List Post}
    (kind : Loop) (circles : Post.Circles text stop body) (rest : Laid text stop ps) :
    (Visit.takenUp (Post.next ⟨.turned kind body, stop⟩) body).Stands text ∧
      Laid text (Post.next ⟨.turned kind body, stop⟩ + 1) ps ∧
      ∀ again, Laid text (Post.next ⟨.turned kind body, stop⟩ + 1)
        (⟨.loop again body body, stop⟩ :: ps) := by
  obtain ⟨s, loop, whole⟩ := id circles
  rw [Stmt.listing_of_loopBody? loop] at whole
  have room : (Stmt.listings body).length + 1 ≤ stop := whole.length_le
  have place : Post.next ⟨.turned kind body, stop⟩ = stop - ((Stmt.listings body).length + 1) := rfl
  refine ⟨⟨s, whole.head, loop⟩, rest.mono ?_, fun again => ?_⟩
  · omega
  · refine Laid.push ?_ ⟨circles.body, circles⟩ rest
    rw [Frame.ahead]
    omega

/-- **A slice visits places further and further on in the text**, and what it leaves lies so that
    the next slice does the same. -/
theorem Host.leads_tour {text : List Stmt} {start : Nat} {posts : List Post}
    (laid : Laid text start posts) : Leads text start (h.tour posts) := by
  match posts with
  | [] =>
    rw [tour.eq_def]
    refine .beside fun alive => ?_
    cases alive <;> exact .ended
  | ⟨f, stop⟩ :: ps =>
    obtain ⟨le, fits, rest⟩ := laid
    match ht : f.take? with
    | some (s, g) =>
      have takes := Post.takes_of_take? fits ht
      have below : Laid text (Post.next ⟨f, stop⟩ + s.listing.length) (⟨g, stop⟩ :: ps) :=
        ⟨Nat.le_of_eq takes.next.symm, takes.fits, rest⟩
      rw [tour_take ht]
      refine .beside fun alive => ?_
      cases alive with
      | false => exact .ended
      | true =>
        refine .visit le takes.stands (.beside fun o => ?_)
        have entered := leads_tour (below.enterAt takes.whole o)
        cases o with
        | pause p => exact .paused (below.mono (Nat.zero_le _))
        | finish => exact .ended
        | _ => exact entered
    | none =>
      rw [tour_over ht]
      refine .beside fun alive => ?_
      cases alive with
      | false => exact .ended
      | true =>
        rcases Frame.cases_of_take? ht with ⟨l, hf⟩ | ⟨kind, body, hf⟩ | ⟨kind, body, hf⟩
        · rw [hf]
          exact leads_tour (rest.mono (Nat.le_trans le (Post.next_le _)))
        · rw [hf] at fits ⊢
          exact .paused ⟨Nat.zero_le _, fits.2, rest⟩
        · rw [hf] at le fits ⊢
          obtain ⟨there, past, again⟩ := Laid.takenUp kind fits rest
          refine .visit le there (.beside fun turn => ?_)
          cases turn with
          | none => exact leads_tour past
          | some kind => exact leads_tour (again kind)
termination_by Frame.weights (posts.map Post.frame)
decreasing_by
  · exact Stmt.weights_enterAt ht
  all_goals
    simp only [List.map_cons, Frame.weights, hf, Frame.weight]
    omega

/-! ## Without the notes -/

/-- The result of a slice without the notes. -/
def forget : EStateM.Result ε (σ × List Visit) (Option (List Post × Pause)) →
    EStateM.Result ε σ Slice
  | .ok none t => .ok .finished t.1
  | .ok (some (posts, p)) t => .ok (.paused (posts.map Post.frame) p) t.1
  | .error e t => .error e t.1

/-- Does a slice with notes do what a slice without them does? -/
def Annotates (c : EStateM ε (σ × List Visit) (Option (List Post × Pause))) (x : EStateM ε σ Slice) :
    Prop := ∀ s, forget (c s) = x s.1

namespace Annotates

theorem beside {x : EStateM ε σ α} {g : α → EStateM ε σ Slice}
    {f : α → EStateM ε (σ × List Visit) (Option (List Post × Pause))}
    (hf : ∀ a, Annotates (f a) (g a)) : Annotates (beside x >>= f) (x >>= g) := by
  intro s
  show forget (EStateM.bind _ _ _) = EStateM.bind _ _ _
  rw [EStateM.bind, EStateM.bind, BlockStage.beside]
  cases x s.1 with
  | ok a t => exact hf a (t, s.2)
  | error e t => rfl

theorem visit {v : Visit} {f : Unit → EStateM ε (σ × List Visit) (Option (List Post × Pause))}
    {x : EStateM ε σ Slice} (hf : Annotates (f ()) x) : Annotates (visit v >>= f) x :=
  fun s => hf (s.1, s.2 ++ [v])

end Annotates

/-- **Without the notes a tour is a slice of the machine.** -/
theorem Host.annotates_tour (posts : List Post) :
    Annotates (h.tour posts) (h.run (posts.map Post.frame)) := by
  match posts with
  | [] =>
    rw [tour.eq_def, List.map_nil, run.eq_def]
    refine .beside fun alive => ?_
    cases alive <;> exact fun _ => rfl
  | ⟨f, stop⟩ :: ps =>
    rw [List.map_cons]
    match ht : f.take? with
    | some (s, g) =>
      rw [tour_take ht, run_take ht]
      refine .beside fun alive => ?_
      cases alive with
      | false => exact fun _ => rfl
      | true =>
        refine .visit (.beside fun o => ?_)
        have entered := annotates_tour (s.enterAt (Post.next ⟨f, stop⟩) o ++ ⟨g, stop⟩ :: ps)
        rw [List.map_append, Stmt.frames_enterAt] at entered
        cases o with
        | pause p => exact fun _ => rfl
        | finish => exact fun _ => rfl
        | _ => exact entered
    | none =>
      rw [tour_over ht, run_over ht]
      refine .beside fun alive => ?_
      cases alive with
      | false => exact fun _ => rfl
      | true =>
        match f with
        | .sequence [] => exact annotates_tour ps
        | .loop kind body [] => exact fun _ => rfl
        | .turned kind body =>
          refine .visit (.beside fun turn => ?_)
          cases turn with
          | none => exact annotates_tour ps
          | some kind => exact annotates_tour (⟨.loop kind body body, stop⟩ :: ps)
termination_by Frame.weights (posts.map Post.frame)
decreasing_by
  · exact Stmt.weights_enterAt ht
  all_goals
    simp only [List.map_cons, Frame.weights, Frame.weight]
    omega

/-! ## Slices return -/

/-- A step that always returns. -/
def Surely (x : EStateM ε σ α) : Prop := ∀ s, ∃ a t, x s = .ok a t

theorem Surely.pure (a : α) : Surely (pure a : EStateM ε σ α) := fun s => ⟨a, s, rfl⟩

theorem Surely.bind {x : EStateM ε σ α} {f : α → EStateM ε σ β} (hx : Surely x)
    (hf : ∀ a, Surely (f a)) : Surely (x >>= f) := by
  intro s
  obtain ⟨a, t, first⟩ := hx s
  obtain ⟨b, u, second⟩ := hf a t
  refine ⟨b, u, ?_⟩
  show EStateM.bind x f s = _
  rw [EStateM.bind, first]
  exact second

/-- Whatever is asked of the host returns. -/
structure Host.Responsive (h : Host (EStateM ε σ)) : Prop where
  alive : Surely h.alive
  eval : ∀ e, Surely (h.eval e)
  perform : ∀ a, Surely (h.perform a)
  count : ∀ name i, Surely (h.count name i)
  addLoop : ∀ loop body, Surely (h.addLoop loop body)
  report : ∀ message, Surely (h.report message)

namespace Host.Responsive

theorem resolve (hh : h.Responsive) (s : Stmt) : Surely (h.resolve s) := by
  cases s with
  | action a =>
    refine (hh.perform a).bind fun flow => ?_
    cases flow with
    | fail message => exact (hh.report message).bind fun _ => .pure _
    | _ => exact .pure _
  | forever loop body => exact (hh.addLoop loop body).bind fun _ => .pure _
  | branch condition yes no => exact (hh.eval condition).bind fun _ => .pure _
  | repeatTimes times body => exact (hh.eval times).bind fun _ => .pure _
  | repeatUntil condition body => exact (hh.eval condition).bind fun _ => .pure _
  | waitUntil condition => exact (hh.eval condition).bind fun _ => .pure _
  | forEach name count body =>
    refine (hh.eval count).bind fun v => ?_
    dsimp only
    split
    · exact .pure _
    · exact (hh.count name 1).bind fun _ => .pure _

theorem again (hh : h.Responsive) (kind : Loop) : Surely (h.again kind) := by
  cases kind with
  | times n => exact .pure _
  | untilTrue condition => exact (hh.eval condition).bind fun _ => .pure _
  | each name index count =>
    rw [Host.again]
    split
    · exact (hh.count name (index + 1)).bind fun _ => .pure _
    · exact .pure _

/-- A slice on a host that always returns does so too. -/
theorem run (hh : h.Responsive) (frames : List Frame) : Surely (h.run frames) := by
  match frames with
  | [] =>
    rw [Host.run.eq_def]
    refine hh.alive.bind fun alive => ?_
    cases alive <;> exact .pure _
  | f :: fs =>
    match ht : f.take? with
    | some (s, g) =>
      rw [run_take ht]
      refine hh.alive.bind fun alive => ?_
      cases alive with
      | false => exact .pure _
      | true =>
        refine (hh.resolve s).bind fun o => ?_
        have rest := run hh (s.enter o ++ g :: fs)
        cases o with
        | pause p => exact .pure _
        | finish => exact .pure _
        | _ => exact rest
    | none =>
      rw [run_over ht]
      refine hh.alive.bind fun alive => ?_
      cases alive with
      | false => exact .pure _
      | true =>
        rcases Frame.cases_of_take? ht with ⟨l, hf⟩ | ⟨kind, body, hf⟩ | ⟨kind, body, hf⟩
        · rw [hf]
          exact run hh fs
        · rw [hf]
          exact .pure _
        · rw [hf]
          refine (hh.again kind).bind fun turn => ?_
          cases turn with
          | none => exact run hh fs
          | some kind => exact run hh (.loop kind body body :: fs)
termination_by Frame.weights frames
decreasing_by
  · exact Frame.weights_enter_lt ht o fs
  all_goals
    simp only [Frame.weights, hf, Frame.weight]
    omega

end Host.Responsive

end

/-! ## The specification -/

/-- The stacks that a body can lead to: its beginning, and what is left where a slice pauses, on
    whatever hosts and from whatever states the slices are run. -/
inductive Stmt.Reaches (body : List Stmt) : List Frame → Prop where
  | start : Reaches body [.sequence body]
  | slice {ε σ : Type} {frames left : List Frame} {p : Pause} {s t : σ} (h : Host (EStateM ε σ))
    (before : Reaches body frames) (run : h.run frames s = .ok (.paused left p) t) :
    Reaches body left

/-- The same with the places noted down. -/
inductive Stmt.Underway (body : List Stmt) : List Post → Prop where
  | start : Underway body [⟨.sequence body, (Stmt.listings body).length⟩]
  | slice {ε σ : Type} {posts left : List Post} {p : Pause} {s : σ} {t : σ × List Visit}
    (h : Host (EStateM ε σ)) (before : Underway body posts)
    (run : h.tour posts (s, []) = .ok (some (left, p)) t) : Underway body left

/-- The stacks of a body lie within its text. -/
theorem Stmt.Underway.laid {body : List Stmt} {posts : List Post} (under : Underway body posts) :
    Laid (Stmt.listings body) 0 posts := by
  induction under with
  | start => exact ⟨Nat.zero_le _, ⟨[], [], by simp only [List.nil_append, List.append_nil],
      by rw [List.length_nil, Nat.zero_add]⟩, trivial⟩
  | slice h _ run ih => exact (h.leads_tour ih _).2 _ _ _ run

/-- Every stack that a body leads to can be given its places. -/
theorem Stmt.Reaches.underway {body : List Stmt} {frames : List Frame} (reached : Reaches body frames) :
    ∃ posts, Underway body posts ∧ posts.map Post.frame = frames := by
  induction reached with
  | start => exact ⟨_, .start, rfl⟩
  | @slice _ _ _ _ _ s _ h _ run ih =>
    obtain ⟨posts, under, rfl⟩ := ih
    have same := h.annotates_tour posts (s, [])
    rw [run] at same
    cases hr : h.tour posts (s, []) with
    | error e t =>
      rw [hr] at same
      cases same
    | ok r t =>
      rw [hr] at same
      cases r with
      | none => cases same
      | some r =>
        cases same
        exact ⟨r.1, .slice h under hr, rfl⟩

section
variable {ε σ : Type}

/-- The visits of a slice, also of one that breaks off. -/
def Host.visits (h : Host (EStateM ε σ)) (posts : List Post) (s : σ) : List Visit :=
  (ending (h.tour posts (s, []))).2

/-- What can be said of a slice of a body. -/
structure Host.Brief (h : Host (EStateM ε σ)) (body : List Stmt) (posts : List Post) (s : σ) :
    Prop where
  /-- The visits are those of the machine. -/
  same : forget (h.tour posts (s, [])) = h.run (posts.map Post.frame) s
  /-- They are visits to the statements that stand in the body. -/
  stands : ∀ v ∈ h.visits posts s, v.Stands (Stmt.listings body)
  /-- No place in the body is visited twice. -/
  once : ((h.visits posts s).map Visit.place).Pairwise (· < ·)
  /-- So there are at most as many visits as statements. -/
  bounded : (h.visits posts s).length ≤ (Stmt.listings body).length
  /-- And the slice returns if whatever is asked of the host does. -/
  returns : h.Responsive → ∃ r t, h.run (posts.map Post.frame) s = .ok r t

/-- **Slices are brief**: from whatever stack a body has led to, whatever its host answers and does,
    and also if the host breaks the slice off. -/
theorem Host.brief_of_reaches {body : List Stmt} {frames : List Frame}
    (reached : Stmt.Reaches body frames) :
    ∃ posts, Stmt.Underway body posts ∧ posts.map Post.frame = frames ∧
      ∀ {ε σ : Type} (h : Host (EStateM ε σ)) (s : σ), h.Brief body posts s := by
  obtain ⟨posts, under, frames⟩ := reached.underway
  refine ⟨posts, under, frames, fun h s => ?_⟩
  obtain ⟨⟨seen, log, onward⟩, -⟩ := h.leads_tour under.laid (s, [])
  have seen : Onward (Stmt.listings body) 0 (h.visits posts s) := by
    rw [Host.visits, log]
    exact onward
  exact ⟨h.annotates_tour posts (s, []), fun v hv => (seen.stands v hv).2, seen.pairwise,
    seen.length_le, fun responsive => responsive.run _ s⟩

end

/-- A host to whom nothing is ever true, and on whom nothing has any effect. -/
def Host.numb : Host (EStateM Unit Unit) where
  alive := pure true
  eval _ := pure (.bool false)
  perform _ := pure .proceed
  count _ _ := pure ()
  addLoop _ _ := pure ()
  report _ := pure ()

/-- A loop that does nothing but turn. -/
def spin : Stmt := .repeatUntil (.const (.bool false)) []

/-- A script that spins again and again. -/
def circles : List Stmt := [.repeatUntil (.const (.bool false)) [spin, spin], spin]

/-- The first slice of the script ends in the first of its loops that ends a turn. -/
theorem Host.brief_circles :
    Stmt.Reaches circles
      [.turned (.untilTrue (.const (.bool false))) [],
        .loop (.untilTrue (.const (.bool false))) [spin, spin] [spin], .sequence [spin]] ∧
      ∃ posts, Stmt.Underway circles posts ∧ ∀ s, numb.Brief circles posts s := by
  let outer (rest : List Stmt) : Frame := .loop (.untilTrue (.const (.bool false))) [spin, spin] rest
  have first : numb.run [.sequence circles] ()
      = numb.run [outer [spin, spin], .sequence [spin]] () := by
    rw [run_take rfl]
    rfl
  have second : numb.run [outer [spin, spin], .sequence [spin]] ()
      = numb.run [.loop (.untilTrue (.const (.bool false))) [] [], outer [spin], .sequence [spin]]
        () := by
    rw [run_take rfl]
    rfl
  have last : numb.run [.loop (.untilTrue (.const (.bool false))) [] [], outer [spin],
      .sequence [spin]] () = .ok (.paused [.turned (.untilTrue (.const (.bool false))) [],
        outer [spin], .sequence [spin]] .tick) () := by
    rw [run_over rfl]
    rfl
  have reached := Stmt.Reaches.slice numb .start (first.trans (second.trans last))
  obtain ⟨posts, under, -, brief⟩ := brief_of_reaches reached
  exact ⟨reached, posts, under, fun s => brief numb s⟩

end BlockStage
