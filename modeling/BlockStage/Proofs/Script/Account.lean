/-
  Accounts: what is to be said of every block of a program that is compiled.

  1. **Specification (`Program.Diagnosed`)** — the behaviors are those of the top-level hats with a
     trigger, in order (`Scripted`).  In every list of blocks that is compiled, each block has either
     become a statement of its kind, in order, and there is no report of it, or there is just one
     (`Accounted`).  Every report leads to a block of its type, and no two to the same place.

  2. **The crux (`Booked`)** — the slots of a block are compiled at most once each, so what is
     reported of one slot is apart from what is reported of the others.  The account of a body only
     depends on the reports beneath it (`Accounted.congr`), and is kept when others are added.
-/
import BlockStage.Proofs.Script.Place

namespace BlockStage

/-! ## What blocks become -/

/-- The kind of block from which an action is made. -/
def Action.kind : Action → BlockKind
  | .moveSteps _ => .moveSteps
  | .turn _ => .turnDegrees
  | .goTo _ _ => .goToXy
  | .changeX _ => .changeX
  | .changeY _ => .changeY
  | .setX _ => .setX
  | .setY _ => .setY
  | .pointDirection _ => .pointDirection
  | .pointTowards _ => .pointTowards
  | .goToTarget _ => .goToTarget
  | .glide _ _ _ => .glideToXy
  | .enablePhysics => .enablePhysics
  | .setVelocity _ _ => .setVelocity
  | .setGravityScale _ => .setGravityScale
  | .setVisible true => .show
  | .setVisible false => .hide
  | .switchCostume _ => .switchCostume
  | .nextCostume => .nextCostume
  | .setScale _ => .setScale
  | .changeScale _ => .changeScale
  | .setDepth _ => .setDepth
  | .playSound _ false => .playSound
  | .playSound _ true => .playSoundUntilDone
  | .stopAllSounds => .stopAllSounds
  | .wait _ => .waitSeconds
  | .stopAll => .stopAll
  | .stopSelf => .stopSelf
  | .createClone _ => .createClone
  | .deleteSelf => .deleteSelf
  | .broadcast _ => .broadcast
  | .attachTo _ => .attachTo
  | .detach => .detach
  | .switchScene _ => .switchScene
  | .resetTimer => .resetTimer
  | .setVariable _ _ => .setVariable
  | .changeVariable _ _ => .changeVariable
  | .log _ => .log

namespace Stmt

/-- The kind of block from which a statement is made. -/
def kind : Stmt → BlockKind
  | .action a => a.kind
  | .forever _ _ => .forever
  | .branch _ _ none => .ifThen
  | .branch _ _ (some _) => .ifElse
  | .repeatTimes _ _ => .repeatTimes
  | .repeatUntil _ _ => .repeatUntil
  | .waitUntil _ => .waitUntil
  | .forEach _ _ _ => .forEach

/-- The bodies of a statement, each with the slot of the block from which it is made. -/
def enclosed : Stmt → List (String × List Stmt)
  | .forever _ body => [(Compile.bodySlot, body)]
  | .branch _ yes none => [(Compile.bodySlot, yes)]
  | .branch _ yes (some no) => [(Compile.bodySlot, yes), (Compile.elseSlot, no)]
  | .repeatTimes _ body => [(Compile.bodySlot, body)]
  | .repeatUntil _ body => [(Compile.bodySlot, body)]
  | .forEach _ _ body => [(Compile.bodySlot, body)]
  | _ => []

end Stmt

namespace Block

/-- The trigger of a hat whose field for it can be read. -/
def trigger? (b : Block) : Option Trigger :=
  match BlockKind.parse? b.type with
  | some .whenGameStarts => some .start
  | some .whenCloneStarts => some .cloneStart
  | some .whenClicked => some .click
  | some .everyFrame => some .forever
  | some .whenKeyPressed => (Key.parse? (b.fieldText "KEY")).map .key
  | some .whenTouching => (Target.parse? (b.fieldText "TARGET")).map .touching
  | some .whenMessageReceived =>
    if isBlankText (b.fieldText "MESSAGE") then none
    else some (.message (trimText (b.fieldText "MESSAGE")))
  | _ => none

/-- At the top level, a block of a known kind that is no hat never runs. -/
def isOrphan (b : Block) : Bool :=
  match BlockKind.parse? b.type with
  | some kind => !kind.isHat
  | none => false

end Block

/-! ## The specification -/

/-- What has become of the blocks of a list, whose positions begin with a number, and of the lists
    of blocks within those that have become statements. -/
inductive Accounted (ds : List Diagnostic) : String → Nat → List Block → List Stmt → Prop where
  | nil (path : String) (i : Nat) : Accounted ds path i [] []
  /-- The block has become a statement of its kind, and there is no report of it. -/
  | emitted {path : String} {i : Nat} {b : Block} {s : Stmt} {bs : List Block} {ss : List Stmt}
    (kind : BlockKind.parse? b.type = some s.kind)
    (silent : reports ds (path ++ "/" ++ toString i) = 0)
    (inner : ∀ e ∈ s.enclosed,
      Accounted ds (path ++ "/" ++ toString i ++ "/" ++ e.1) 0 (b.body e.1) e.2)
    (rest : Accounted ds path (i + 1) bs ss) : Accounted ds path i (b :: bs) (s :: ss)
  /-- The block has been left out, and there is one report of it. -/
  | reported {path : String} {i : Nat} {b : Block} {bs : List Block} {ss : List Stmt}
    (once : reports ds (path ++ "/" ++ toString i) = 1)
    (rest : Accounted ds path (i + 1) bs ss) : Accounted ds path i (b :: bs) ss

/-- What has become of top-level blocks: each hat with a trigger has become a behavior with that
    trigger, and there is no report of it; the others have become nothing, and of those that are no
    orphans there is one report. -/
inductive Scripted (ds : List Diagnostic) : Nat → List Block → List Behavior → Prop where
  | nil (i : Nat) : Scripted ds i [] []
  | hat {i : Nat} {b : Block} {h : Behavior} {bs : List Block} {hs : List Behavior}
    (trigger : b.trigger? = some h.trigger)
    (silent : reports ds (toString i) = 0)
    (body : Accounted ds (toString i ++ "/" ++ Compile.bodySlot) 0 (b.body Compile.bodySlot) h.body)
    (rest : Scripted ds (i + 1) bs hs) : Scripted ds i (b :: bs) (h :: hs)
  | other {i : Nat} {b : Block} {bs : List Block} {hs : List Behavior}
    (none : b.trigger? = none)
    (told : reports ds (toString i) = if b.isOrphan then 0 else 1)
    (rest : Scripted ds (i + 1) bs hs) : Scripted ds i (b :: bs) hs

/-- What can be said of a compiled program. -/
structure Program.Diagnosed (p : Program) (c : CompiledProgram) : Prop where
  /-- The triggers of the behaviors are those of the hats that have one, in order. -/
  triggers : c.behaviors.map Behavior.trigger = p.filterMap Block.trigger?
  /-- Every block of a list that is compiled has become a statement or has one report. -/
  scripts : Scripted c.diagnostics 0 p c.behaviors
  /-- The path of a report leads to a block of the type that is reported. -/
  placed : ∀ d ∈ c.diagnostics, ∃ b, p.find? d.path = some b ∧ b.type = d.block
  /-- No two reports have the same path. -/
  apart : (c.diagnostics.map Diagnostic.path).Nodup

/-! ## Where reports of blocks lead -/

/-- From a block, the path goes on to a block of a type. -/
def Block.Leads (b : Block) (rest : List String) (type : String) : Prop :=
  ∃ c, b.follow? rest = some c ∧ c.type = type

/-- It does so through one of some slots. -/
def Block.Through (b : Block) (slots : List String) (rest : List String) (type : String) : Prop :=
  (∃ k ∈ slots, rest.head? = some k) ∧ b.Leads rest type

/-- From a list of blocks, the path goes on to a block of a type, at a position or a later one. -/
def ListLeads (bs : List Block) (i : Nat) (rest : List String) (type : String) : Prop :=
  ∃ j onward c, i ≤ j ∧ rest = toString j :: onward ∧
    (blockAt? (toString j) bs i).bind (Block.follow? onward) = some c ∧ c.type = type

/-- A slot for values, as far as paths are concerned. -/
def isValueSlot (k : String) : Bool := !k.toList.contains '/' && !isBodySlot k

section
variable {root : List String} {k : String} {b : Block} {slots : List String}
  {l m : List Diagnostic} {bs : List Block} {i j : Nat}

theorem noSlash_of_body (hk : isBodySlot k = true) : '/' ∉ k.toList := by
  rw [isBodySlot, Bool.or_eq_true, beq_iff_eq, beq_iff_eq] at hk
  rcases hk with rfl | rfl <;> decide

theorem isValueSlot_iff : isValueSlot k = true ↔ '/' ∉ k.toList ∧ isBodySlot k = false := by
  simp [isValueSlot]

theorem isBodySlot_of_enclosed {s : Stmt} {e : String × List Stmt} (he : e ∈ s.enclosed) :
    isBodySlot e.1 = true := by
  rw [Stmt.enclosed.eq_def] at he
  split at he <;> simp only [List.mem_cons, List.not_mem_nil, or_false] at he
  all_goals first | (subst he; rfl) | (rcases he with rfl | rfl <;> rfl)

/-- A position is written without a slash. -/
theorem segments_at (path : String) (i : Nat) :
    segments (path ++ "/" ++ toString i) = segments path ++ [toString i] :=
  segments_step (notMem_toString rfl i) path

/-- Reports through slots are reports beneath the block. -/
theorem Within.leads_through (h : Within root (b.Through slots) l) : Within root b.Leads l :=
  h.mono fun _ _ through => through.2

/-- Reports through one more slot. -/
theorem Within.through (h : Within root (b.Through slots) l) (new : k ∉ slots)
    (hm : Within root (b.Through [k]) m) : Within root (b.Through (k :: slots)) (l ++ m) := by
  refine (h.append hm ?_).mono ?_
  · rintro rest t u ⟨⟨j, hj, first⟩, -⟩ ⟨⟨j', hj', first'⟩, -⟩
    obtain rfl := List.mem_singleton.mp hj'
    exact new (Option.some.inj (first.symm.trans first') ▸ hj)
  · rintro rest type (⟨⟨j, hj, first⟩, leads⟩ | ⟨⟨j, hj, first⟩, leads⟩)
    · exact ⟨⟨j, List.mem_cons_of_mem k hj, first⟩, leads⟩
    · obtain rfl := List.mem_singleton.mp hj
      exact ⟨⟨j, List.mem_cons_self, first⟩, leads⟩

/-- Reports through slots, and one of the block itself. -/
theorem Within.through_single {path : String} (h : Within (segments path) (b.Through slots) l)
    (problem : Problem) :
    Within (segments path) b.Leads (l ++ [⟨path, b.type, problem⟩]) := by
  refine (h.append (.single rfl b.type problem) ?_).mono ?_
  · rintro rest t u ⟨⟨k, -, first⟩, -⟩ ⟨rfl, -⟩
    cases first
  · rintro rest type (⟨-, leads⟩ | ⟨rfl, rfl⟩)
    · exact leads
    · exact ⟨b, by rw [Block.follow?], rfl⟩

/-- Reports beneath the first block of a list, and of later ones. -/
theorem Within.cons (first : Within (root ++ [toString i]) b.Leads l)
    (others : Within root (ListLeads bs (i + 1)) m) :
    Within root (ListLeads (b :: bs) i) (l ++ m) := by
  refine (first.child.append others ?_).mono ?_
  · rintro rest t u ⟨onward, rfl, -⟩ ⟨j, onward', c, hj, same, -⟩
    have : i = j := toString_inj.mp (List.cons.inj same).1
    omega
  · rintro rest type (⟨onward, rfl, c, leads, rfl⟩ | ⟨j, onward, c, hj, rfl, leads, rfl⟩)
    · exact ⟨i, onward, c, Nat.le_refl i, rfl, by rw [blockAt?_self]; exact leads, rfl⟩
    · exact ⟨j, onward, c, Nat.le_of_succ_le hj, rfl, by rw [blockAt?_later hj]; exact leads, rfl⟩

end

/-! ## Accounts are kept -/

namespace Accounted

variable {path : String} {i : Nat} {bs : List Block} {ss : List Stmt} {l m n : List Diagnostic}

/-- An account holds as long as the reports from the list on are the same. -/
theorem congr (h : Accounted l path i bs ss)
    (same : ∀ q j onward, i ≤ j → segments q = segments path ++ toString j :: onward →
      reports n q = reports l q) : Accounted n path i bs ss := by
  induction h with
  | nil path i => exact .nil path i
  | emitted kind silent inner rest ihInner ihRest =>
    refine .emitted kind ?_ (fun e he => ihInner e he fun q j onward _ hq => ?_) ?_
    · rw [same _ _ [] (Nat.le_refl _) (segments_at _ _), silent]
    · refine same q _ (e.1 :: toString j :: onward) (Nat.le_refl _) ?_
      rw [hq, segments_step (noSlash_of_body (isBodySlot_of_enclosed he)), segments_at,
        List.append_assoc, List.append_assoc]
      rfl
    · exact ihRest fun q j onward hj => same q j onward (Nat.le_of_succ_le hj)
  | reported once rest ih =>
    refine .reported ?_ (ih fun q j onward hj => same q j onward (Nat.le_of_succ_le hj))
    rw [same _ _ [] (Nat.le_refl _) (segments_at _ _), once]

/-- So it is kept beside reports that are somewhere else. -/
theorem beside {root : List String} {P : List String → String → Prop}
    (h : Accounted l path i bs ss) (others : Within root P m)
    (sum : ∀ q, reports n q = reports l q + reports m q)
    (away : ∀ j onward rest type, i ≤ j → segments path ++ toString j :: onward = root ++ rest →
      ¬P rest type) : Accounted n path i bs ss := by
  refine h.congr fun q j onward hj hq => ?_
  have none : reports m q = 0 :=
    others.reports_eq_zero fun rest type hrest => away j onward rest type hj (hq.symm.trans hrest)
  rw [sum, none, Nat.add_zero]

end Accounted

/-! ## One block -/

/-- Reports through some slots of a block are known, and what has become of some of its bodies. -/
structure Booked (b : Block) (path : String) (slots : List String)
    (bodies : List (String × List Stmt)) (l : List Diagnostic) : Prop where
  within : Within (segments path) (b.Through slots) l
  slotted : ∀ e ∈ bodies, e.1 ∈ slots ∧ isBodySlot e.1 = true
  accounts : ∀ e ∈ bodies, Accounted l (path ++ "/" ++ e.1) 0 (b.body e.1) e.2

namespace Booked

variable {b : Block} {path k : String} {slots : List String} {bodies : List (String × List Stmt)}
  {l m n : List Diagnostic} {ss : List Stmt}

theorem nothing : Booked b path [] [] [] :=
  ⟨.nil, fun _ he => (List.not_mem_nil he).elim, fun _ he => (List.not_mem_nil he).elim⟩

/-- The account of a body is kept when other slots have their reports. -/
theorem accounted_of_others (slot : isBodySlot k = true)
    (h : Accounted l (path ++ "/" ++ k) 0 (b.body k) ss)
    (others : Within (segments path) (b.Through slots) m) (new : k ∉ slots)
    (sum : ∀ q, reports n q = reports l q + reports m q) :
    Accounted n (path ++ "/" ++ k) 0 (b.body k) ss := by
  refine h.beside others sum ?_
  rintro j onward rest type - hrest ⟨⟨k', hk', first⟩, -⟩
  rw [segments_step (noSlash_of_body slot), List.append_assoc] at hrest
  obtain rfl : k :: toString j :: onward = rest := List.append_cancel_left hrest
  exact new (Option.some.inj first ▸ hk')

/-- The reports through one more slot. -/
theorem value (h : Booked b path slots bodies l) (new : k ∉ slots)
    (hm : Within (segments path) (b.Through [k]) m) :
    Booked b path (k :: slots) bodies (l ++ m) where
  within := h.within.through new hm
  slotted e he := ⟨List.mem_cons_of_mem k (h.slotted e he).1, (h.slotted e he).2⟩
  accounts e he := by
    have other : e.1 ∉ [k] := fun same => new (List.mem_singleton.mp same ▸ (h.slotted e he).1)
    exact accounted_of_others (h.slotted e he).2 (h.accounts e he) hm other (reports_append l m)

/-- The same for the slot of a body. -/
theorem body (h : Booked b path slots bodies l) (slot : isBodySlot k = true) (new : k ∉ slots)
    (hm : Within (segments path) (b.Through [k]) m)
    (account : Accounted m (path ++ "/" ++ k) 0 (b.body k) ss) :
    Booked b path (k :: slots) (bodies ++ [(k, ss)]) (l ++ m) where
  within := h.within.through new hm
  slotted e he := by
    rcases List.mem_append.mp he with he | he
    · exact (h.value new hm).slotted e he
    · obtain rfl := List.mem_singleton.mp he
      exact ⟨List.mem_cons_self, slot⟩
  accounts e he := by
    rcases List.mem_append.mp he with he | he
    · exact (h.value new hm).accounts e he
    · obtain rfl := List.mem_singleton.mp he
      exact accounted_of_others slot account h.within new (reports_append_comm l m)

/-- There is no report of the block itself. -/
theorem silent (h : Booked b path slots bodies l) : reports l path = 0 := by
  refine h.within.reports_eq_zero ?_
  rintro rest type hrest ⟨⟨k, -, first⟩, -⟩
  obtain rfl : [] = rest := List.append_cancel_left ((List.append_nil _).trans hrest)
  cases first

end Booked

/-- What has become of a block in a body: it has been left out with one report of it, or it has
    become a statement of its kind, and the reports are through its slots. -/
def Fate (b : Block) (path : String) (l : List Diagnostic) : Option Stmt → Prop
  | none => ∃ problem, l = [⟨path, b.type, problem⟩]
  | some s => BlockKind.parse? b.type = some s.kind ∧ ∃ slots, Booked b path slots s.enclosed l

/-! ## Lists of blocks -/

section
variable {path : String} {b : Block} {i : Nat} {bs : List Block} {l m : List Diagnostic}

/-- Reports beneath a block of a list are apart from those of later ones. -/
theorem away_of_later (root : List String) {j : Nat} {onward rest : List String} {type : String}
    (h : root ++ toString i :: onward = root ++ rest) (hj : i < j) : ¬ListLeads bs j rest type := by
  rintro ⟨k, onward', c, hk, rfl, -⟩
  have : i = k := toString_inj.mp (List.cons.inj (List.append_cancel_left h)).1
  omega

theorem Fate.beneath {o : Option Stmt} (h : Fate b path l o) :
    Within (segments path) b.Leads l := by
  cases o with
  | none =>
    obtain ⟨problem, rfl⟩ := h
    exact Booked.nothing.within.through_single problem
  | some s =>
    obtain ⟨-, slots, told⟩ := h
    exact told.within.leads_through

/-- A list with one more block. -/
theorem Fate.cons {o : Option Stmt} {ss : List Stmt}
    (first : Fate b (path ++ "/" ++ toString i) l o)
    (within : Within (segments path) (ListLeads bs (i + 1)) m)
    (account : Accounted m path (i + 1) bs ss) :
    Within (segments path) (ListLeads (b :: bs) i) (l ++ m) ∧
      Accounted (l ++ m) path i (b :: bs) (o.toList ++ ss) := by
  have beneath := first.beneath
  rw [segments_at] at beneath
  have rest : Accounted (l ++ m) path (i + 1) bs ss := by
    refine account.beside beneath.child (reports_append_comm l m) ?_
    rintro j onward rest type hj hrest ⟨onward', rfl, -⟩
    have : j = i := toString_inj.mp (List.cons.inj (List.append_cancel_left hrest)).1
    omega
  have others : reports m (path ++ "/" ++ toString i) = 0 := by
    refine within.reports_eq_zero fun rest type hrest => ?_
    rw [segments_at] at hrest
    exact away_of_later _ hrest (Nat.lt_succ_self i)
  refine ⟨beneath.cons within, ?_⟩
  cases o with
  | none =>
    obtain ⟨problem, rfl⟩ := first
    exact .reported (by rw [reports_append, reports_single, others]) rest
  | some s =>
    obtain ⟨kind, slots, told⟩ := first
    refine .emitted kind (by rw [reports_append, told.silent, others]) (fun e he => ?_) rest
    refine (told.accounts e he).beside within (reports_append l m) ?_
    rintro j onward rest type - hrest
    rw [segments_step (noSlash_of_body (told.slotted e he).2), segments_at, List.append_assoc,
      List.append_assoc] at hrest
    exact away_of_later _ hrest (Nat.lt_succ_self i)

end

/-! ## Programs -/

/-- What has become of a top-level block: it has become a behavior with its trigger, and the reports
    are through its body, or it has none and there is one report of it, unless it is an orphan. -/
def TopFate (b : Block) (path : String) (l : List Diagnostic) : Option Behavior → Prop
  | none => b.trigger? = none ∧
    if b.isOrphan then l = [] else ∃ problem, l = [⟨path, b.type, problem⟩]
  | some h => b.trigger? = some h.trigger ∧
    Booked b path [Compile.bodySlot] [(Compile.bodySlot, h.body)] l

section
variable {b : Block} {i : Nat} {bs : List Block} {hs : List Behavior} {l m : List Diagnostic}

theorem segments_top (i : Nat) : segments (toString i) = [toString i] :=
  segments_single (notMem_toString rfl i)

theorem Scripted.congr (h : Scripted l i bs hs)
    (same : ∀ q j onward, i ≤ j → segments q = toString j :: onward → reports m q = reports l q) :
    Scripted m i bs hs := by
  induction h with
  | nil i => exact .nil i
  | hat trigger silent body rest ih =>
    refine .hat trigger ?_ (body.congr fun q j onward _ hq => ?_)
      (ih fun q j onward hj => same q j onward (Nat.le_of_succ_le hj))
    · rw [same _ _ [] (Nat.le_refl _) (segments_top _), silent]
    · refine same q _ (Compile.bodySlot :: toString j :: onward) (Nat.le_refl _) ?_
      rw [hq, segments_step (noSlash_of_body rfl), segments_top]
      rfl
  | other none told rest ih =>
    refine .other none ?_ (ih fun q j onward hj => same q j onward (Nat.le_of_succ_le hj))
    rw [same _ _ [] (Nat.le_refl _) (segments_top _), told]

/-- The triggers of the behaviors are those of the blocks that have one. -/
theorem Scripted.triggers (h : Scripted l i bs hs) :
    hs.map Behavior.trigger = bs.filterMap Block.trigger? := by
  induction h with
  | nil i => rfl
  | hat trigger _ _ _ ih => rw [List.map_cons, List.filterMap_cons_some trigger, ih]
  | other none _ _ ih => rw [List.filterMap_cons_none none, ih]

theorem TopFate.beneath {o : Option Behavior} (h : TopFate b (toString i) l o) :
    Within [toString i] b.Leads l := by
  rw [← segments_top]
  cases o with
  | none =>
    obtain ⟨-, told⟩ := h
    split at told
    · rw [told]
      exact .nil
    · obtain ⟨problem, rfl⟩ := told
      exact Booked.nothing.within.through_single problem
  | some h' => exact h.2.within.leads_through

/-- A program with one more block. -/
theorem TopFate.cons {o : Option Behavior} (first : TopFate b (toString i) l o)
    (within : Within [] (ListLeads bs (i + 1)) m) (account : Scripted m (i + 1) bs hs) :
    Within [] (ListLeads (b :: bs) i) (l ++ m) ∧
      Scripted (l ++ m) i (b :: bs) (o.toList ++ hs) := by
  have beneath : Within ([] ++ [toString i]) b.Leads l := first.beneath
  have rest : Scripted (l ++ m) (i + 1) bs hs := by
    refine account.congr fun q j onward hj hq => ?_
    have none : reports l q = 0 := by
      refine beneath.child.reports_eq_zero ?_
      rintro rest type hrest ⟨onward', rfl, -⟩
      have : j = i := toString_inj.mp (List.cons.inj (hq.symm.trans hrest)).1
      omega
    rw [reports_append, none, Nat.zero_add]
  have others : reports m (toString i) = 0 := by
    refine within.reports_eq_zero fun rest type hrest => ?_
    rw [segments_top] at hrest
    exact away_of_later [] hrest (Nat.lt_succ_self i)
  refine ⟨beneath.cons within, ?_⟩
  cases o with
  | none =>
    obtain ⟨none, told⟩ := first
    refine .other none ?_ rest
    rw [reports_append, others, Nat.add_zero]
    split at told
    · rw [told, if_pos ‹_›]
      rfl
    · obtain ⟨problem, rfl⟩ := told
      rw [reports_single, if_neg ‹_›]
  | some h =>
    obtain ⟨trigger, told⟩ := first
    have body := told.accounts (Compile.bodySlot, h.body) List.mem_cons_self
    refine .hat trigger (by rw [reports_append, told.silent, others]) ?_ rest
    refine body.beside within (reports_append l m) ?_
    rintro j onward rest type - hrest
    rw [segments_step (noSlash_of_body rfl), segments_top] at hrest
    exact away_of_later [] hrest (Nat.lt_succ_self i)

end

end BlockStage
