/-
  Diagnoses: the compiler drops no block silently.

  1. **Reports of a step (`Compile.Reports`)** — a step of a compilation only adds reports.  What is
     said of it is about its result and the reports since a certain moment, so what is known of the
     slots of a block is put together while the block is compiled.

  2. **One block (`Site.Fits`, `Site.Houses`)** — whatever its kind, a value block has its reports
     beneath itself, and a block in a body has become a statement of its kind without a report of its
     own, or there is no report but one of it (`Fate`).

  3. **All blocks** — by the recursion of the compiler, the same of the blocks plugged in, of the
     blocks in bodies, and at last of the program.
-/
import BlockStage.Proofs.Script.Account

namespace BlockStage

/-! ## Reports of a step -/

namespace Compile

/-- From a moment with the given reports on, a step only adds reports; what is said holds of its
    result and all reports since that moment's beginning. -/
def Reports {α : Type} (l : List Diagnostic) (c : Compile α) (Q : α → List Diagnostic → Prop) :
    Prop :=
  ∀ s base, s.diagnostics = base ++ l →
    ∃ m, (c.run s).2.diagnostics = base ++ m ∧ Q (c.run s).1 m

namespace Reports

variable {α β : Type} {l : List Diagnostic} {c : Compile α} {f : α → Compile β}
  {P Q : α → List Diagnostic → Prop} {R : β → List Diagnostic → Prop}

theorem pure {a : α} (h : Q a l) : Reports l (pure a) Q := fun _ _ hs => ⟨l, hs, h⟩

theorem mono (h : Reports l c P) (hPQ : ∀ a m, P a m → Q a m) : Reports l c Q := by
  intro s base hs
  obtain ⟨m, hm, said⟩ := h s base hs
  exact ⟨m, hm, hPQ _ _ said⟩

theorem bind (h : Reports l c P) (next : ∀ a m, P a m → Reports m (f a) R) :
    Reports l (c >>= f) R := by
  intro s base hs
  obtain ⟨m, hm, said⟩ := h s base hs
  exact next _ m said _ base hm

/-- What a step says of its own reports. -/
theorem frame (h : Reports [] c Q) : Reports l c fun a m => ∃ k, m = l ++ k ∧ Q a k := by
  intro s base hs
  obtain ⟨k, hk, said⟩ := h s (base ++ l) (by rw [hs, List.append_nil])
  exact ⟨l ++ k, by rw [hk, List.append_assoc], k, rfl, said⟩

theorem report (path type : String) (problem : Problem) :
    Reports l (Compile.report path type problem) fun _ m => m = l ++ [⟨path, type, problem⟩] := by
  intro s base hs
  refine ⟨l ++ [⟨path, type, problem⟩], ?_, rfl⟩
  change s.diagnostics ++ _ = _
  rw [hs, List.append_assoc]

theorem freshId : Reports l Compile.freshId fun _ m => m = l := fun _ _ hs => ⟨l, hs, rfl⟩

end Reports

end Compile

open Compile

/-! ## One block -/

namespace Compile.Site

/-- The site of a block whose plugged blocks have their reports beneath themselves. -/
structure Fits (s : Site) (b : Block) : Prop where
  type : s.type = b.type
  fields : s.fields = b.fields
  value : ∀ k fallback, isValueSlot k = true →
    Reports [] (s.value k fallback) fun _ m => Within (segments s.path) (b.Through [k]) m

/-- The site of a block whose bodies have their accounts, too. -/
structure Houses (s : Site) (b : Block) : Prop extends Fits s b where
  body : ∀ k, isBodySlot k = true → Reports [] (s.body k) fun ss m =>
    Within (segments s.path) (b.Through [k]) m ∧
      Accounted m (s.path ++ "/" ++ k) 0 (b.body k) ss

section
variable {s : Site} {b : Block} {slots : List String} {bodies : List (String × List Stmt)}
  {l : List Diagnostic} {α : Type} {R : α → List Diagnostic → Prop}

theorem Fits.text (h : s.Fits b) (name : String) : s.text name = b.fieldText name := by
  rw [Site.text, h.fields]
  rfl

/-- The value of one more slot is taken. -/
theorem Fits.take (h : s.Fits b) {k : String} {fallback : Value} {f : Expr → Compile α}
    (told : Booked b s.path slots bodies l)
    (next : ∀ e m, Booked b s.path (k :: slots) bodies m → Reports m (f e) R)
    (slot : isValueSlot k = true := by decide) (new : k ∉ slots := by decide) :
    Reports l (s.value k fallback >>= f) R := by
  refine (h.value k fallback slot).frame.bind ?_
  rintro e _ ⟨m, rfl, within⟩
  exact next e _ (told.value new within)

/-- The body of one more slot is taken. -/
theorem Houses.enter (h : s.Houses b) {k : String} {f : List Stmt → Compile α}
    (told : Booked b s.path slots bodies l)
    (next : ∀ ss m, Booked b s.path (k :: slots) (bodies ++ [(k, ss)]) m → Reports m (f ss) R)
    (slot : isBodySlot k = true := by decide) (new : k ∉ slots := by decide) :
    Reports l (s.body k >>= f) R := by
  refine (h.body k slot).frame.bind ?_
  rintro ss _ ⟨m, rfl, within, account⟩
  exact next ss _ (told.body slot new within account)

end

/-! ### Values -/

section
variable {s : Site} {b : Block} {slots : List String} {l : List Diagnostic}

/-- The reports are beneath the block. -/
abbrev Beneath (s : Site) (b : Block) : Expr → List Diagnostic → Prop :=
  fun _ m => Within (segments s.path) b.Leads m

theorem beneath_pure {e : Expr} (told : Booked b s.path slots [] l) :
    Reports l (pure e) (s.Beneath b) := .pure told.within.leads_through

theorem Fits.beneath_instead (h : s.Fits b) (told : Booked b s.path slots [] l) (p : Problem)
    (v : Value) : Reports l (s.instead p v) (s.Beneath b) := by
  refine (Reports.report s.path s.type p).bind ?_
  rintro _ _ rfl
  rw [h.type]
  exact .pure (told.within.through_single p)

theorem Fits.beneath_target (h : s.Fits b) (field : String) :
    Reports [] (s.target field) fun _ m => Within (segments s.path) b.Leads m := by
  rw [Site.target]
  cases Target.parse? (s.text field) with
  | some t => exact .pure .nil
  | none =>
    refine (Reports.report s.path s.type .noTarget).bind ?_
    rintro _ _ rfl
    rw [h.type]
    exact .pure (Booked.nothing.within.through_single _)

/-- Whatever the kind of a value block, its reports are beneath it. -/
theorem Fits.expression (h : s.Fits b) (kind : BlockKind) :
    Reports [] (s.expression kind) (s.Beneath b) := by
  have told : Booked b s.path [] [] [] := .nothing
  cases kind with
  | mathOp =>
    rw [Site.expression]
    cases MathOperator.parse? (s.text "OP") with
    | none => exact h.beneath_instead told _ _
    | some op => exact h.take told fun _ _ told => h.take told fun _ _ told => beneath_pure told
  | mathFn =>
    rw [Site.expression]
    cases MathFunction.parse? (s.text "FN") with
    | none => exact h.beneath_instead told _ _
    | some f => exact h.take told fun _ _ told => beneath_pure told
  | randomRange => exact h.take told fun _ _ told => h.take told fun _ _ told => beneath_pure told
  | compare =>
    rw [Site.expression]
    cases Comparison.parse? (s.text "OP") with
    | none => exact h.beneath_instead told _ _
    | some test => exact h.take told fun _ _ told => h.take told fun _ _ told => beneath_pure told
  | logicOp =>
    rw [Site.expression]
    refine h.take told fun _ _ told => h.take told fun _ _ told => ?_
    split
    · exact beneath_pure told
    split
    · exact beneath_pure told
    · exact h.beneath_instead told _ _
  | logicNot => exact h.take told fun _ _ told => beneath_pure told
  | join => exact h.take told fun _ _ told => h.take told fun _ _ told => beneath_pure told
  | textLength => exact h.take told fun _ _ told => beneath_pure told
  | getVariable =>
    rw [Site.expression]
    split
    · exact h.beneath_instead told _ _
    · exact beneath_pure told
  | touching | distanceTo =>
    refine (h.beneath_target "TARGET").bind fun t m within => ?_
    cases t <;> exact .pure within
  | keyDown =>
    rw [Site.expression]
    cases Key.parse? (s.text "KEY") with
    | none => exact h.beneath_instead told _ _
    | some key => exact beneath_pure told
  | number | text | boolean | getTouchingObject | pointerX | pointerY | pointerDown | myX | myY
  | myDirection | myCostume | myScale | timer | isOnGround | myId | isClone =>
    exact beneath_pure told
  | _ => exact h.beneath_instead told _ _

/-- So are those of a block that stands where a value is wanted. -/
theorem Fits.plugged (h : s.Fits b) : Reports [] s.plugged (s.Beneath b) := by
  have told : Booked b s.path [] [] [] := .nothing
  rw [Site.plugged]
  split
  · exact h.beneath_instead told _ _
  split
  · exact h.expression _
  · exact h.beneath_instead told _ _

end

/-! ### Statements -/

section
variable {s : Site} {b : Block} {slots : List String} {l : List Diagnostic} {kind : BlockKind}

theorem fate_pure {st : Stmt} (kind : BlockKind.parse? b.type = some st.kind)
    (told : Booked b s.path slots st.enclosed l) :
    Reports l (pure (some st)) fun o m => Fate b s.path m o := .pure ⟨kind, slots, told⟩

theorem Fits.fate_without (h : s.Fits b) (p : Problem) :
    Reports [] (s.without p) fun o m => Fate b s.path m o := by
  refine (Reports.report s.path s.type p).bind ?_
  rintro _ _ rfl
  rw [h.type]
  exact .pure ⟨p, rfl⟩

/-- An action has no bodies. -/
theorem fate_action {a : Action} (kind : BlockKind.parse? b.type = some a.kind)
    (told : Booked b s.path slots [] l) :
    Reports l (pure (some (.action a))) fun o m => Fate b s.path m o :=
  fate_pure kind told

theorem Fits.fate_actionOf (h : s.Fits b) {name : String} {fallback : Value} {f : Expr → Action}
    (kind : ∀ e, BlockKind.parse? b.type = some (f e).kind)
    (slot : isValueSlot name = true := by decide) :
    Reports [] (s.actionOf name fallback f) fun o m => Fate b s.path m o :=
  h.take .nothing (fun e _ told => fate_action (kind e) told) slot List.not_mem_nil

theorem Fits.fate_action2 (h : s.Fits b) {x y : String} {f : Expr → Expr → Action}
    (kind : ∀ d e, BlockKind.parse? b.type = some (f d e).kind)
    (slotX : isValueSlot x = true := by decide) (slotY : isValueSlot y = true := by decide)
    (new : y ∉ [x] := by decide) :
    Reports [] (s.action2 x y f) fun o m => Fate b s.path m o :=
  h.take .nothing (fun d _ told => h.take told (fun e _ told => fate_action (kind d e) told)
    slotY new) slotX List.not_mem_nil

/-- Whatever the kind of a block in a body, it has become a statement of that kind, or it has one
    report. -/
theorem Houses.statementOf (h : s.Houses b) (parsed : BlockKind.parse? b.type = some kind) :
    Reports [] (s.statementOf kind) fun o m => Fate b s.path m o := by
  have told : Booked b s.path [] [] [] := .nothing
  cases kind with
  | moveSteps | turnDegrees | changeX | changeY | setX | setY | pointDirection | setGravityScale
  | changeScale | setDepth | waitSeconds | pointTowards | goToTarget | switchCostume | setScale
  | playSound | playSoundUntilDone | createClone | broadcast | attachTo | switchScene | log =>
    exact h.fate_actionOf fun _ => parsed
  | goToXy | setVelocity => exact h.fate_action2 fun _ _ => parsed
  | glideToXy =>
    exact h.take told fun _ _ told => h.take told fun _ _ told => h.take told fun _ _ told =>
      fate_action parsed told
  | enablePhysics | «show» | hide | nextCostume | stopAllSounds | stopAll | stopSelf | deleteSelf
  | detach | resetTimer => exact fate_action parsed told
  | setVariable | changeVariable =>
    rw [Site.statementOf]
    split
    · exact h.fate_without _
    · exact h.fate_actionOf fun _ => parsed
  | waitUntil => exact h.take told fun _ _ told => fate_pure parsed told
  | repeatTimes | repeatUntil =>
    exact h.take told fun _ _ told => h.enter told fun _ _ told => fate_pure parsed told
  | forEach =>
    rw [Site.statementOf]
    split
    · exact h.fate_without _
    · exact h.take told fun _ _ told => h.enter told fun _ _ told => fate_pure parsed told
  | ifThen => exact h.take told fun _ _ told => h.enter told fun _ _ told => fate_pure parsed told
  | ifElse =>
    exact h.take told fun _ _ told => h.enter told fun _ _ told => h.enter told fun _ _ told =>
      fate_pure parsed told
  | forever =>
    refine h.enter told fun ss m told => Reports.freshId.bind ?_
    rintro loop _ rfl
    exact fate_pure parsed told
  | _ => exact h.fate_without _

theorem Houses.statement (h : s.Houses b) :
    Reports [] s.statement fun o m => Fate b s.path m o := by
  rw [Site.statement]
  split
  · exact h.fate_without _
  · rename_i kind parsed
    rw [h.type] at parsed
    split
    · exact h.fate_without _
    split
    · exact h.fate_without _
    · exact h.statementOf parsed

end

/-! ### Triggers -/

section
variable {s : Site} {b : Block} {kind : BlockKind}

/-- A trigger has been found without a report, or there is just one report of the block. -/
def Found (path : String) (b : Block) : Option Trigger → List Diagnostic → Prop
  | none, m => ∃ problem, m = [⟨path, b.type, problem⟩]
  | some _, m => m = []

theorem Fits.trigger_missing (h : s.Fits b) (p : Problem) :
    Reports [] (do s.report p; return (none : Option Trigger)) fun o m =>
      o = none ∧ Found s.path b o m := by
  refine (Reports.report s.path s.type p).bind ?_
  rintro _ _ rfl
  rw [h.type]
  exact .pure ⟨rfl, p, rfl⟩

/-- The trigger of a hat is the one that can be read from its fields. -/
theorem Fits.trigger (h : s.Fits b) (parsed : BlockKind.parse? b.type = some kind)
    (hat : kind.isHat = true) :
    Reports [] (s.trigger kind) fun o m => o = b.trigger? ∧ Found s.path b o m := by
  rw [Block.trigger?, parsed]
  cases kind with
  | whenGameStarts | whenCloneStarts | whenClicked | everyFrame => exact .pure ⟨rfl, rfl⟩
  | whenKeyPressed =>
    rw [Site.trigger, h.text]
    cases Key.parse? (b.fieldText "KEY") with
    | some key => exact .pure ⟨rfl, rfl⟩
    | none => exact h.trigger_missing _
  | whenTouching =>
    rw [Site.trigger, h.text]
    cases Target.parse? (b.fieldText "TARGET") with
    | some t => exact .pure ⟨rfl, rfl⟩
    | none => exact h.trigger_missing _
  | whenMessageReceived =>
    rw [Site.trigger, h.text]
    dsimp only
    split
    · exact h.trigger_missing _
    · exact .pure ⟨rfl, rfl⟩
  | _ => cases hat

end

end Compile.Site

/-! ## All blocks -/

/-- What holds of every block, if it holds of a block of whose plugged blocks it holds, and of whose
    blocks in bodies. -/
theorem Block.induct {P : Block → Prop}
    (step : ∀ b : Block, (∀ k c, b.inputs.lookup k = some c → P c) →
      (∀ k, ∀ c ∈ b.body k, P c) → P b) (b : Block) : P b := by
  have entry : ∀ {β : Type} [SizeOf β] {l : List (String × β)} {k : String} {v : β},
      l.lookup k = some v → sizeOf v < sizeOf l := by
    intro β _ l k v h
    obtain ⟨before, after, rfl, -⟩ := List.lookup_eq_some_iff.mp h
    have smaller := List.sizeOf_lt_of_mem (List.mem_append_right before (List.mem_cons_self
      (a := (k, v)) (l := after)))
    simp only [Prod.mk.sizeOf_spec] at smaller
    omega
  obtain ⟨type, fields, inputs, statements⟩ := b
  refine step _ (fun k c hc => ?_) (fun k c hc => ?_)
  · have smaller : sizeOf c < sizeOf inputs := entry hc
    exact induct step c
  · rw [Block.body, Block.statements] at hc
    cases hk : statements.lookup k with
    | none =>
      rw [hk] at hc
      cases hc
    | some l =>
      rw [hk] at hc
      have inside : sizeOf c < sizeOf l := List.sizeOf_lt_of_mem hc
      have smaller : sizeOf l < sizeOf statements := entry hk
      exact induct step c
termination_by sizeOf b
decreasing_by all_goals simp only [Block.mk.sizeOf_spec]; omega

namespace Compile

/-- What is plugged into a slot, as a function of its path. -/
theorem lookup_slotsOf (inputs : List (String × Block)) (k : String) :
    (slotsOf inputs).lookup k = (inputs.lookup k).map exprOf := by
  induction inputs with
  | nil => rfl
  | cons e rest ih =>
    obtain ⟨name, b⟩ := e
    rw [slotsOf, List.lookup_cons, List.lookup_cons]
    split
    · rfl
    · exact ih

/-- What stands in the slot of a body, as a function of its path. -/
theorem lookup_bodiesOf (statements : List (String × List Block)) (k : String) :
    (bodiesOf statements).lookup k = (statements.lookup k).map fun l => bodyOf l 0 false := by
  induction statements with
  | nil => rfl
  | cons e rest ih =>
    obtain ⟨name, l⟩ := e
    rw [bodiesOf, List.lookup_cons, List.lookup_cons]
    split
    · rfl
    · exact ih

/-- The site of a block that stands where a value is wanted. -/
theorem fits {b : Block} {bodies : Bodies} (path : String)
    (plugged : ∀ k c, b.inputs.lookup k = some c →
      ∀ path, Reports [] (exprOf c path) fun _ m => Within (segments path) c.Leads m) :
    Site.Fits ⟨b.type, path, b.fields, slotsOf b.inputs, bodies⟩ b where
  type := rfl
  fields := rfl
  value k fallback slot := by
    rw [Site.value]
    dsimp only
    rw [lookup_slotsOf]
    cases hc : b.inputs.lookup k with
    | none => exact .pure .nil
    | some c =>
      obtain ⟨slash, noBody⟩ := isValueSlot_iff.mp slot
      refine (plugged k c hc _).mono fun _ m within => ?_
      rw [segments_step slash] at within
      refine within.child.mono ?_
      rintro rest type ⟨onward, rfl, d, leads, rfl⟩
      exact ⟨⟨k, List.mem_cons_self, rfl⟩, d, by rw [Block.follow?_input noBody hc, leads], rfl⟩

/-- The reports of a plugged block are beneath it. -/
theorem exprOf_beneath (b : Block) :
    ∀ path, Reports [] (exprOf b path) fun _ m => Within (segments path) b.Leads m := by
  induction b using Block.induct with
  | step b plugged _ =>
    intro path
    obtain ⟨type, fields, inputs, statements⟩ := b
    rw [exprOf]
    exact (fits path plugged).plugged

/-- There is an account of a list of blocks, if what has become of each of them is known. -/
theorem bodyOf_accounted {bs : List Block}
    (known : ∀ b ∈ bs, ∀ path, Reports [] (stmtOf b path) fun o m => Fate b path m o)
    (i : Nat) (capped : Bool) (path : String) :
    Reports [] (bodyOf bs i capped path) fun ss m =>
      Within (segments path) (ListLeads bs i) m ∧ Accounted m path i bs ss := by
  induction bs generalizing i capped with
  | nil => exact .pure ⟨.nil, .nil path i⟩
  | cons b rest ih =>
    have others := ih (fun c hc => known c (List.mem_cons_of_mem b hc)) (i + 1)
    rw [bodyOf]
    split
    · refine (Reports.report _ b.type .unreachable).bind ?_
      rintro _ _ rfl
      refine (others true).frame.mono ?_
      rintro ss _ ⟨m, rfl, within, account⟩
      exact Fate.cons (o := none) ⟨_, rfl⟩ within account
    · refine (known b List.mem_cons_self _).bind fun o l first => ?_
      refine (others _).frame.bind ?_
      rintro ss _ ⟨m, rfl, within, account⟩
      exact .pure (first.cons within account)

/-- The site of a block in a body. -/
theorem houses {b : Block} (path : String)
    (known : ∀ k, ∀ c ∈ b.body k, ∀ path,
      Reports [] (stmtOf c path) fun o m => Fate c path m o) :
    (siteOf b path).Houses b where
  toFits := fits path fun _ c _ => exprOf_beneath c
  body k slot := by
    rw [Site.body, siteOf]
    dsimp only
    rw [lookup_bodiesOf]
    cases hl : b.statements.lookup k with
    | none =>
      have empty : b.body k = [] := by rw [Block.body, hl]; rfl
      rw [empty]
      exact .pure ⟨.nil, .nil _ _⟩
    | some l =>
      have there : b.body k = l := by rw [Block.body, hl]; rfl
      rw [there]
      refine (bodyOf_accounted (there ▸ known k) 0 false _).mono ?_
      rintro ss m ⟨within, account⟩
      refine ⟨?_, account⟩
      rw [segments_step (noSlash_of_body slot)] at within
      refine within.child.mono ?_
      rintro rest type ⟨_, rfl, j, onward, c, -, rfl, leads, rfl⟩
      exact ⟨⟨k, List.mem_cons_self, rfl⟩, c, by rw [Block.follow?_body slot, there, leads], rfl⟩

/-- What has become of a block in a body. -/
theorem stmtOf_fate (b : Block) :
    ∀ path, Reports [] (stmtOf b path) fun o m => Fate b path m o := by
  induction b using Block.induct with
  | step b _ known =>
    intro path
    have statement := (houses path known).statement
    obtain ⟨type, fields, inputs, statements⟩ := b
    rw [stmtOf]
    exact statement

theorem siteOf_houses (b : Block) (path : String) : (siteOf b path).Houses b :=
  houses path fun _ c _ => stmtOf_fate c

/-- What has become of a top-level block. -/
theorem behavior_fate (b : Block) (i : Nat) :
    Reports [] (behavior b i) fun o m => TopFate b (toString i) m o := by
  have here := siteOf_houses b (toString i)
  rw [behavior]
  cases parsed : BlockKind.parse? b.type with
  | none =>
    refine (Reports.report _ _ .unknownBlock).bind ?_
    rintro _ _ rfl
    exact .pure ⟨by rw [Block.trigger?, parsed], by rw [Block.isOrphan, parsed]; exact ⟨_, rfl⟩⟩
  | some kind =>
    dsimp only
    have orphan : b.isOrphan = !kind.isHat := by
      rw [Block.isOrphan, parsed]
    cases hat : kind.isHat with
    | false =>
      refine .pure ⟨?_, by rw [orphan, hat]; rfl⟩
      rw [Block.trigger?, parsed]
      cases kind <;> first | rfl | cases hat
    | true =>
      refine (here.trigger parsed hat).bind ?_
      rintro o l ⟨trigger, found⟩
      cases o with
      | none => exact .pure ⟨trigger.symm, by rw [orphan, hat]; exact found⟩
      | some t =>
        obtain rfl : l = [] := found
        refine here.enter .nothing fun ss m told => Reports.freshId.bind ?_
        rintro id _ rfl
        exact .pure ⟨trigger.symm, told⟩

/-- What has become of the top-level blocks. -/
theorem behaviors_scripted (bs : List Block) (i : Nat) :
    Reports [] (behaviors bs i) fun hs m =>
      Within [] (ListLeads bs i) m ∧ Scripted m i bs hs := by
  induction bs generalizing i with
  | nil => exact .pure ⟨.nil, .nil i⟩
  | cons b rest ih =>
    refine (behavior_fate b i).bind fun o l first => ?_
    refine (ih (i + 1)).frame.bind ?_
    rintro hs _ ⟨m, rfl, within, account⟩
    exact .pure (first.cons within account)

end Compile

/-! ## Programs -/

/-- The compiler drops no block silently: whatever the program, its behaviors are those of the hats
    with a trigger, each block of a list that is compiled has become a statement or has just one
    report, and the reports lead to different blocks, of the types that they name. -/
theorem Program.diagnosed_compile (p : Program) (first : Nat) : p.Diagnosed (p.compile first) := by
  obtain ⟨m, log, within, scripts⟩ := behaviors_scripted p 0 ⟨[], first⟩ [] rfl
  have diagnostics : (p.compile first).diagnostics = m := log
  refine ⟨scripts.triggers, diagnostics ▸ scripts, ?_, diagnostics ▸ within.nodup_paths⟩
  rw [diagnostics]
  intro d hd
  obtain ⟨_, path, j, onward, b, -, rfl, leads, type⟩ := within.leads d hd
  exact ⟨b, by rw [Program.find?, path]; exact leads, type⟩

end BlockStage
