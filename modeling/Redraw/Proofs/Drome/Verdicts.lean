import Redraw.Proofs.Drome.Rasterize

/-!
# The verdicts on sprites

A game reads what became of a sprite from the status in its entry. While the stream is walked over, an occluder that
opens a hole leaves the pixel there that it saved; the main statement (`rasterize_verdicts`) says that no such pixel is
left in the end, and which verdict replaces it. Holes are filled in newest first, so the oldest hole of a sprite is the
last one that its status is stored for.
-/

namespace Redraw.Drome

/-! ## Reachable states -/

/-- A state that the engine can be in, on frames that fit their scale. -/
inductive Reachable : Drome → Prop
  | idle : Reachable Drome.idle
  | init {e : Drome} (config : Config) (c : Context) (title : Title) :
      Reachable e → Reachable (e.init config c title).1
  | hook {e : Drome} {c : Context} {m : Machine} {pc : Address} {o : Outcome} :
      Reachable e → c.frames.Sized → e.hook c m pc = .ok o → Reachable { e with holes := o.holes }

/-- No hole stays open from one call to the next. -/
theorem Reachable.closed {e : Drome} (reachable : Reachable e) : e.holes.toList = [] := by
  induction reachable with
  | idle => exact Bounded.toList_empty
  | init config c title _ ih =>
    unfold Drome.init
    split
    · exact Bounded.toList_empty
    · exact ih
  | @hook e c m pc o _ sized returned ih =>
    obtain ⟨o', returned', closed, -⟩ := hook_returns ih sized m pc
    obtain rfl : o' = o := Except.ok.inj (returned'.symm.trans returned)
    exact closed

/-! ## Statuses of holes -/

theorem sprite_of_mem_opened {s : Scene} {visits : List Visit} {h : Hole} (mem : h ∈ opened s visits) :
    ∃ v ∈ visits, v.Punches s ∧ v.sprite = h.sprite := by
  obtain ⟨v, punches, rfl⟩ := List.mem_map.1 mem
  obtain ⟨mem, punches⟩ := List.mem_filter.1 punches
  exact ⟨v, mem, of_decide_eq_true punches, rfl⟩

theorem sprite_of_mem_reported {holes : List Hole} {c : Canvas} {status : UInt8 × UInt16}
    (mem : status ∈ reported holes c) : ∃ h ∈ holes, h.sprite = status.1 := by
  induction holes generalizing c with
  | nil => cases mem
  | cons h holes ih =>
    rcases List.mem_cons.1 mem with rfl | later
    · exact ⟨h, List.mem_cons_self, rfl⟩
    · obtain ⟨h', mem', same⟩ := ih later
      exact ⟨h', List.mem_cons_of_mem h mem', same⟩

/-- A hole is filled in after the newer ones, and its status is stored before those of the older ones. -/
theorem reported_append (newer : List Hole) (h : Hole) (older : List Hole) (c : Canvas) :
    let before := (Punched.unwind newer c).2
    reported (newer ++ h :: older) c =
      reported newer c ++ (h.sprite, (Punched.fillIn before h).1.code) :: reported older (Punched.fillIn before h).2 := by
  simp [reported, Punched.unwind_append, Punched.unwind]

theorem code_fillIn (c : Canvas) (h : Hole) :
    (Punched.fillIn c h).1.code = if c.pixel? h.x h.y = some 0 then 2 else 0 := by
  unfold Punched.fillIn
  split <;> rfl

/-- The statuses that a walk stores. -/
def provisional (s : Scene) (visits : List Visit) : List (UInt8 × UInt16) := visits.map fun v => (v.sprite, v.status s)

theorem machine_walked (s : Scene) (c : Canvas) (holes : Holes) (m : Machine) :
    (walked s c holes m).machine = s.setStatuses m (provisional s (encountered s c holes m)) := by
  obtain ⟨-, -, machine⟩ := Pass.walk_spec Pass.maxRecords ⟨s.stream⟩ ⟨c, holes, m, #[]⟩ s
  rw [walked, encountered, machine, Scene.setStatuses, provisional, List.foldl_map]

theorem holes_walked (s : Scene) (c : Canvas) (holes : Holes) (m : Machine) :
    (walked s c holes m).holes.toList = holes.toList ++ opened s (encountered s c holes m) :=
  (Pass.walk_spec Pass.maxRecords ⟨s.stream⟩ ⟨c, holes, m, #[]⟩ s).1

/-! ## The status in the end -/

section Final

variable {s : Scene} {m : Machine} {visits : List Visit} {i : UInt8}

theorem exists_last {statuses : List (UInt8 × UInt16)} (named : ∃ status ∈ statuses, status.1 = i) :
    ∃ earlier v later, statuses = earlier ++ (i, v) :: later ∧ ∀ status ∈ later, status.1 ≠ i := by
  induction statuses with
  | nil =>
    obtain ⟨_, mem, _⟩ := named
    cases mem
  | cons status statuses ih =>
    by_cases again : ∃ status ∈ statuses, status.1 = i
    · obtain ⟨earlier, v, later, rfl, last⟩ := ih again
      exact ⟨status :: earlier, v, later, rfl, last⟩
    · have last : ∀ status ∈ statuses, status.1 ≠ i := fun status mem same => again ⟨status, mem, same⟩
      obtain ⟨status', mem, same⟩ := named
      rcases List.mem_cons.1 mem with rfl | mem
      · exact ⟨[], status'.2, statuses, by rw [← same]; rfl, last⟩
      · exact absurd same (last _ mem)

theorem exists_first (named : ∃ v ∈ visits, v.sprite = i ∧ v.Punches s) :
    ∃ before first after, visits = before ++ first :: after ∧ first.sprite = i ∧ first.Punches s ∧
      ∀ v ∈ before, v.sprite = i → ¬v.Punches s := by
  induction visits with
  | nil =>
    obtain ⟨_, mem, _⟩ := named
    cases mem
  | cons v visits ih =>
    by_cases now : v.sprite = i ∧ v.Punches s
    · exact ⟨[], v, visits, rfl, now.1, now.2, fun _ mem => nomatch mem⟩
    · have later : ∃ v ∈ visits, v.sprite = i ∧ v.Punches s := by
        obtain ⟨v', mem, good⟩ := named
        rcases List.mem_cons.1 mem with rfl | mem
        · exact absurd good now
        · exact ⟨v', mem, good⟩
      obtain ⟨before, first, after, rfl, sprite, punches, earliest⟩ := ih later
      refine ⟨v :: before, first, after, rfl, sprite, punches, ?_⟩
      rw [List.forall_mem_cons]
      exact ⟨fun same punches => now ⟨same, punches⟩, earliest⟩

/-- Occluders that open no hole leave their sprite outside. -/
theorem spriteStatus_provisional (ram : s.TableWritable m) (named : ∃ v ∈ visits, v.sprite = i)
    (none_opened : ∀ v ∈ visits, v.sprite = i → ¬v.Punches s) :
    s.spriteStatus (s.setStatuses m (provisional s visits)) i = 1 := by
  have named' : ∃ status ∈ provisional s visits, status.1 = i := by
    obtain ⟨v, mem, same⟩ := named
    exact ⟨_, List.mem_map_of_mem mem, same⟩
  obtain ⟨earlier, code, later, split, last⟩ := exists_last named'
  obtain ⟨v, mem, eq⟩ := List.mem_map.1 (split ▸ List.mem_append_right earlier List.mem_cons_self)
  have outside : code = 1 := by
    obtain ⟨rfl, rfl⟩ := Prod.mk.inj eq
    exact if_neg (none_opened v mem rfl)
  rw [split, Scene.spriteStatus_setStatuses ram earlier code last, outside]

theorem spriteStatus_reported_of_not_opened (none_opened : ∀ v ∈ visits, v.sprite = i → ¬v.Punches s) (m : Machine)
    (c : Canvas) : s.spriteStatus (s.setStatuses m (reported (opened s visits).reverse c)) i = s.spriteStatus m i := by
  refine Scene.spriteStatus_setStatuses_of_not_mem (fun status mem same => ?_) m
  obtain ⟨h, mem, sprite⟩ := sprite_of_mem_reported mem
  obtain ⟨v, mem, punches, sprite'⟩ := sprite_of_mem_opened (List.mem_reverse.1 mem)
  exact none_opened v mem (sprite'.trans (sprite.trans same)) punches

/-- Filling in stores the verdict on the oldest hole of a sprite last. -/
theorem spriteStatus_reported (ram : s.TableWritable m) {before after : List Visit} {first : Visit}
    (sprite : first.sprite = i) (punches : first.Punches s) (earliest : ∀ v ∈ before, v.sprite = i → ¬v.Punches s)
    (c : Canvas) :
    s.spriteStatus (s.setStatuses m (reported (opened s (before ++ first :: after)).reverse c)) i =
      if (Punched.unwind (opened s after).reverse c).2.pixel? (first.hole s).x (first.hole s).y = some 0 then 2 else 0 := by
  have holes : (opened s (before ++ first :: after)).reverse =
      (opened s after).reverse ++ first.hole s :: (opened s before).reverse := by
    rw [opened_append, ← List.singleton_append, opened_append, opened_singleton, if_pos punches]
    simp
  -- What is filled in after the hole of `first` are the holes that were opened before it, all of other sprites.
  have none_later : ∀ status ∈ reported (opened s before).reverse
      (Punched.fillIn (Punched.unwind (opened s after).reverse c).2 (first.hole s)).2, status.1 ≠ i := by
    intro status mem same
    obtain ⟨h, mem, sprite'⟩ := sprite_of_mem_reported mem
    obtain ⟨v, mem, punches', sprite''⟩ := sprite_of_mem_opened (List.mem_reverse.1 mem)
    exact earliest v mem (sprite''.trans (sprite'.trans same)) punches'
  subst sprite
  rw [holes, reported_append, ← code_fillIn]
  exact Scene.spriteStatus_setStatuses ram _ _ none_later

theorem tableWritable_hideStream (ram : s.TableWritable m) (policy : Policy) : s.TableWritable (hideStream policy s m) := by
  unfold hideStream
  split
  · exact fun a inTable => Machine.writable_writeByte.2 (ram a inTable)
  · exact ram

theorem spriteStatus_hideStream (apart : ¬s.InTable s.stream) (policy : Policy) (m : Machine) (i : UInt8) :
    s.spriteStatus (hideStream policy s m) i = s.spriteStatus m i := by
  unfold hideStream
  split
  · exact Scene.spriteStatus_writeByte apart m 0 i
  · rfl

end Final

/-- A hole is still zero when filling in, at the end of a walk, has filled the given number of newer holes. -/
def StillZero (w : Pass) (newer : Nat) (h : Hole) : Prop :=
  (Punched.drainN newer ⟨w.canvas, w.holes⟩).2.canvas.pixel? h.x h.y = some 0

instance (w : Pass) (newer : Nat) (h : Hole) : Decidable (StillZero w newer h) := inferInstanceAs (Decidable (_ = _))

theorem stillZero_zero (w : Pass) (h : Hole) : StillZero w 0 h ↔ w.canvas.pixel? h.x h.y = some 0 := Iff.rfl

/-! ### The machine after a pass -/

section Pass

variable {s : Scene} {c : Canvas} {holes : Holes} {m : Machine} {i : UInt8}

theorem machine_pass (policy : Policy) (closed : holes.toList = []) :
    (pass policy s c holes m).machine =
      s.setStatuses (hideStream policy s (walked s c holes m).machine)
        (reported (opened s (encountered s c holes m)).reverse (walked s c holes m).canvas) := by
  rw [(pass_spec policy s c holes m).2.2.1, holes_walked, closed, List.nil_append]

theorem spriteStatus_pass_of_not_opened (policy : Policy) (closed : holes.toList = []) (ram : s.TableWritable m)
    (apart : ¬s.InTable s.stream) (named : ∃ v ∈ encountered s c holes m, v.sprite = i)
    (none_opened : ∀ v ∈ encountered s c holes m, v.sprite = i → ¬v.Punches s) :
    s.spriteStatus (pass policy s c holes m).machine i = 1 := by
  rw [machine_pass policy closed, spriteStatus_reported_of_not_opened none_opened, spriteStatus_hideStream apart,
    machine_walked]
  exact spriteStatus_provisional ram named none_opened

theorem spriteStatus_pass_of_opened (policy : Policy) (closed : holes.toList = []) (ram : s.TableWritable m)
    {before after : List Visit} {first : Visit} (split : encountered s c holes m = before ++ first :: after)
    (sprite : first.sprite = i) (punches : first.Punches s) (earliest : ∀ v ∈ before, v.sprite = i → ¬v.Punches s) :
    s.spriteStatus (pass policy s c holes m).machine i =
      if StillZero (walked s c holes m) (opened s after).length (first.hole s) then 2 else 0 := by
  have ram' : s.TableWritable (hideStream policy s (walked s c holes m).machine) := by
    refine tableWritable_hideStream ?_ policy
    rw [machine_walked]
    exact Scene.tableWritable_setStatuses ram _
  -- The holes that were opened after the first one of the sprite are the newest ones, which are filled in before it.
  have newest : (walked s c holes m).holes.toList = opened s (before ++ [first]) ++ (opened s after).reverse.reverse := by
    rw [holes_walked, closed, split, List.reverse_reverse, ← opened_append, List.append_assoc]
    rfl
  have reached := (Punched.drainN_eq_unwind _ _ ⟨(walked s c holes m).canvas, (walked s c holes m).holes⟩ newest).2.1
  rw [List.length_reverse] at reached
  rw [machine_pass policy closed, split, spriteStatus_reported ram' sprite punches earliest, ← reached]
  rfl

end Pass

/-- **Verdicts.** Wherever the table of sprites is RAM apart from the first byte of the stream, the rasterizer returns
with no hole open. The status of every sprite that an occluder of the stream names is a verdict: outside exactly when
none of its occluders opened a hole, otherwise visible if the hole of the first one that did is still zero when the
newer holes have been filled in, and occluded if not. -/
theorem rasterize_verdicts {e : Drome} (reachable : Reachable e) {a : Active} (active : e.active = some a)
    {c : Context} (sized : c.frames.Sized) {m : Machine} (stage : m.readWord a.profile.stage = a.profile.rasterize)
    (ram : (Scene.read m (m.register 0)).TableWritable m)
    (apart : ¬(Scene.read m (m.register 0)).InTable (Scene.read m (m.register 0)).stream) :
    let s := Scene.read m (m.register 0)
    let visits := encountered s (Canvas.blank c.frames.scale) e.holes m
    let w := walked s (Canvas.blank c.frames.scale) e.holes m
    Returns (e.hook c m a.profile.trampoline) fun o => o.holes.toList = [] ∧ ∀ v ∈ visits,
      let status := s.spriteStatus o.machine v.sprite
      (status = 0 ∨ status = 1 ∨ status = 2) ∧
      (status = 1 ↔ ∀ u ∈ visits, u.sprite = v.sprite → ¬u.Punches s) ∧
      ∀ before first after, visits = before ++ first :: after → first.sprite = v.sprite → first.Punches s →
        (∀ u ∈ before, u.sprite = v.sprite → ¬u.Punches s) →
          status = if StillZero w (opened s after).length (first.hole s) then 2 else 0 := by
  intro s visits w
  have closed := reachable.closed
  have run : e.hook c m a.profile.trampoline = rasterize a.policy e.holes c m := by
    rw [Drome.hook, active]
    simp [Drome.runStage, stage]
  rw [run]
  refine (rasterize_returns sized a.policy e.holes m).mono fun o left => ?_
  obtain ⟨-, empty, -⟩ := pass_spec a.policy s (Canvas.blank c.frames.scale) e.holes m
  obtain ⟨holes, machine, -⟩ := left
  refine ⟨holes ▸ empty, fun v mem => ?_⟩
  intro status
  have final : status = s.spriteStatus (pass a.policy s (Canvas.blank c.frames.scale) e.holes m).machine v.sprite := by
    rw [← machine]
  have outside (none_opened : ∀ u ∈ visits, u.sprite = v.sprite → ¬u.Punches s) : status = 1 :=
    final.trans (spriteStatus_pass_of_not_opened a.policy closed ram apart ⟨v, mem, rfl⟩ none_opened)
  have judged (before : List Visit) (first : Visit) (after : List Visit) (split : visits = before ++ first :: after)
      (sprite : first.sprite = v.sprite) (punches : first.Punches s)
      (earliest : ∀ u ∈ before, u.sprite = v.sprite → ¬u.Punches s) :
      status = if StillZero w (opened s after).length (first.hole s) then 2 else 0 :=
    final.trans (spriteStatus_pass_of_opened a.policy closed ram split sprite punches earliest)
  refine ⟨?_, ⟨fun one u mem same punches => ?_, outside⟩, judged⟩
  · by_cases some_opened : ∃ u ∈ visits, u.sprite = v.sprite ∧ u.Punches s
    · obtain ⟨before, first, after, split, sprite, punches, earliest⟩ := exists_first some_opened
      rw [judged before first after split sprite punches earliest]
      split <;> simp
    · exact .inr (.inl (outside fun u mem same punches => some_opened ⟨u, mem, same, punches⟩))
  · obtain ⟨before, first, after, split, sprite, punches, earliest⟩ := exists_first ⟨u, mem, same, punches⟩
    rw [judged before first after split sprite punches earliest] at one
    split at one <;> cases one

/-! A stream of one occluder, for a sprite in the only pixel of its viewport. The scene and its table are in work RAM, the
stream on the cartridge. -/

namespace Single

def fields : ByteArray :=
  ⟨#[0, 0, 0, 0, 0, 0, 0, 0, 0, 0, 0, 0, 0, 0, 0, 0, 0, 0, 0, 0, 0, 0, 0, 0, 0, 0, 0, 0, 0, 0, 0, 0,
    0, 0, 0, 0, 1, 0, 1, 0, 0, 0, 0, 0, 0, 0, 0, 0, 0, 0, 0, 0, 0, 0, 0, 0, 0, 0, 0, 8, 0, 0, 0, 0,
    0, 0, 0, 0, 0, 0, 0, 0, 0, 0, 0, 0, 0, 0, 0, 0, 0, 0, 0, 0, 0, 0, 0, 0, 0, 0, 0, 0, 0, 0, 0, 0]⟩

def memory : Memory where
  workRam := fields ++ Bytes.zeros 0x800
  internalRam := Bytes.zeros 0xE04 ++ ⟨#[0x30, 0x03, 0x00, 0x08]⟩
  palette := .empty
  video := .empty
  cartridge := ⟨#[7, 0, 12, 0, 0, 0, 0, 0, 0, 0, 0, 0]⟩

def machine : Machine := ⟨Vector.replicate 16 0x02000000, memory, true, []⟩

def scene : Scene := Scene.read machine (machine.register 0)

def engine : Drome := ⟨some ⟨racers, defaultPolicy⟩, .empty⟩

theorem reachable : Reachable engine := .init Config.default (Context.blank 1) (.ofChars 'A' 'O' 'E' 'X') .idle

/-- The address is that of a byte of the scene. -/
def At (a : Address) (i : Nat) : Prop := Region.ofAddress? a = some .workRam ∧ Region.workRam.offset a = i ∧ i < 96

instance (a : Address) (i : Nat) : Decidable (At a i) := inferInstanceAs (Decidable (_ ∧ _ ∧ _))

theorem readByte_of_at {a : Address} {i : Nat} (there : At a i) :
    machine.readByte a = (Bytes.at? fields i).getD 0 := by
  obtain ⟨region, offset, low⟩ := there
  have size : fields.size = 96 := rfl
  have byte : machine.readByte a = (Bytes.at? (fields ++ Bytes.zeros 0x800) i).getD 0 := by
    rw [Machine.readByte, Memory.read, region, ← offset]
    rfl
  rw [byte, Bytes.at?_append, size, if_pos low]

theorem readHalf_of_at {a : Address} {i : Nat} (first : At a i) (second : At (a + 1) (i + 1)) :
    machine.readHalf a =
      ((Bytes.at? fields i).getD 0).toUInt16 ||| ((Bytes.at? fields (i + 1)).getD 0).toUInt16 <<< 8 := by
  rw [Machine.readHalf, readByte_of_at first, readByte_of_at second]

theorem readWord_of_at {a : Address} {i : Nat} (first : At a i) (second : At (a + 1) (i + 1))
    (third : At (a + 2) (i + 2)) (fourth : At (a + 3) (i + 3)) :
    machine.readWord a =
      ((Bytes.at? fields i).getD 0).toUInt32 ||| ((Bytes.at? fields (i + 1)).getD 0).toUInt32 <<< 8 |||
        ((Bytes.at? fields (i + 2)).getD 0).toUInt32 <<< 16 ||| ((Bytes.at? fields (i + 3)).getD 0).toUInt32 <<< 24 := by
  rw [Machine.readWord, readByte_of_at first, readByte_of_at second, readByte_of_at third, readByte_of_at fourth]

theorem scene_eq : scene = ⟨0x02000000, 0x08000000, 0, 0, 0, 0, 1, 1⟩ := by
  have register : machine.register 0 = 0x02000000 := rfl
  rw [scene, register, Scene.read]
  dsimp only
  rw [readHalf_of_at (i := 32) (by decide) (by decide), readHalf_of_at (i := 34) (by decide) (by decide),
    readHalf_of_at (i := 36) (by decide) (by decide), readHalf_of_at (i := 38) (by decide) (by decide),
    readWord_of_at (i := 56) (by decide) (by decide) (by decide) (by decide),
    readWord_of_at (i := 60) (by decide) (by decide) (by decide) (by decide),
    readWord_of_at (i := 64) (by decide) (by decide) (by decide) (by decide)]
  decide

theorem stage : machine.readWord racers.stage = racers.rasterize := by
  have byte {a : Address} {i : Nat} (there : Region.ofAddress? a = some .internalRam ∧
      Region.internalRam.offset a = 0xE04 + i) :
      machine.readByte a = (Bytes.at? ⟨#[0x30, 0x03, 0x00, 0x08]⟩ i).getD 0 := by
    have view : machine.readByte a =
        (Bytes.at? (Bytes.zeros 0xE04 ++ ⟨#[0x30, 0x03, 0x00, 0x08]⟩) (0xE04 + i)).getD 0 := by
      rw [Machine.readByte, Memory.read, there.1, ← there.2]
      rfl
    rw [view, Bytes.at?_append, Bytes.size_zeros, if_neg (by omega), Nat.add_sub_cancel_left]
  rw [Machine.readWord, byte (i := 0) (by decide), byte (i := 1) (by decide), byte (i := 2) (by decide),
    byte (i := 3) (by decide)]
  decide

theorem toNat_of_inTable {a : Address} (inTable : scene.InTable a) : 0x02000060 ≤ a.toNat ∧ a.toNat < 0x02000860 := by
  obtain ⟨i, offset, lt, rfl⟩ := inTable
  have index := i.toNat_lt
  rw [UInt32.lt_iff_toNat_lt] at lt
  rw [scene_eq]
  simp only [Scene.spriteAddress, UInt32.toNat_add, UInt32.toNat_mul, UInt8.toNat_toUInt32, UInt32.reduceToNat] at lt ⊢
  omega

theorem tableWritable : scene.TableWritable machine := by
  intro a inTable
  have range := toNat_of_inTable inTable
  have top : a >>> 24 = 2 := by
    apply UInt32.toNat_inj.1
    rw [Region.toNat_shiftRight_24]
    change a.toNat / 0x1000000 = 2
    omega
  refine ⟨.workRam, ?_, rfl, ?_⟩
  · rw [Region.ofAddress?, top]
    rfl
  · have size : (machine.memory.bytes .workRam).size = 96 + 0x800 := by
      rw [show machine.memory.bytes .workRam = fields ++ Bytes.zeros 0x800 from rfl, ByteArray.size_append,
        Bytes.size_zeros]
      rfl
    rw [size, Region.offset_of_isWritable rfl]
    omega

theorem apart : ¬scene.InTable scene.stream := by
  intro inTable
  have range := toNat_of_inTable inTable
  rw [scene_eq] at range
  exact absurd range.2 (by decide)

def start : Pass := ⟨Canvas.blank 1, engine.holes, machine, #[]⟩

def visit : Visit := ⟨⟨0x08000000⟩, start⟩

theorem sprite_eq : visit.sprite = 0 := by decide

theorem position_eq : visit.position scene = (0, 0) := by
  have byte {a : Address} {i : Nat} (there : Region.ofAddress? a = some .workRam ∧
      Region.workRam.offset a = 96 + i) : machine.readByte a = 0 := by
    have view : machine.readByte a = (Bytes.at? (fields ++ Bytes.zeros 0x800) (96 + i)).getD 0 := by
      rw [Machine.readByte, Memory.read, there.1, ← there.2]
      rfl
    have size : fields.size = 96 := rfl
    rw [view, Bytes.at?_append, size, if_neg (by omega), Bytes.at?_zeros]
    split <;> rfl
  have entry : scene.spriteAddress 0 = 0x02000060 := by
    rw [scene_eq]
    rfl
  rw [Visit.position, sprite_eq, Scene.spritePosition, show visit.pass.machine = machine from rfl, entry,
    Machine.readHalf, Machine.readHalf, byte (i := 2) (by decide), byte (i := 3) (by decide),
    byte (i := 4) (by decide), byte (i := 5) (by decide)]
  decide

theorem punches : visit.Punches scene := by
  rw [Visit.Punches, Visit.outputPosition, position_eq, scene_eq]
  decide

theorem met_eq : Pass.met ⟨scene.stream⟩ start = [visit] := by
  rw [scene_eq]
  exact Pass.met_of_tag (by decide)

/-- Storing the status leaves the cartridge alone. -/
theorem readByte_drawn {a : Address} (cartridge : 0x08000000 ≤ a.toNat) :
    (start.drawRecord scene ⟨scene.stream⟩).machine.readByte a = machine.readByte a := by
  have apart {b : Address} (inTable : scene.InTable b) : b ≠ a := by
    rintro rfl
    have := toNat_of_inTable inTable
    omega
  rw [(Pass.drawRecord_spec start scene ⟨scene.stream⟩).2.2, met_eq, List.foldl_cons, List.foldl_nil,
    Scene.setSpriteStatus, Machine.readByte_writeHalf_of_ne (apart (scene.inTable_status _).1)
      (apart (scene.inTable_status _).2)]
  rfl

theorem more : (⟨scene.stream⟩ : Record).tag start.machine ≠ 0 := by
  rw [scene_eq]
  decide

theorem next_eq : (⟨scene.stream⟩ : Record).next (start.drawRecord scene ⟨scene.stream⟩).machine = ⟨0x0800000C⟩ := by
  have stream : scene.stream = 0x08000000 := by rw [scene_eq]
  rw [Record.next, Machine.readHalf, readByte_drawn (by rw [stream]; decide), readByte_drawn (by rw [stream]; decide),
    stream]
  decide

theorem stop : (⟨0x0800000C⟩ : Record).tag (start.drawRecord scene ⟨scene.stream⟩).machine = 0 := by
  rw [Record.tag, readByte_drawn (by decide)]
  decide

theorem maxRecords_eq : Pass.maxRecords = 4094 + 1 + 1 := rfl

theorem encountered_eq : encountered scene (Canvas.blank 1) engine.holes machine = [visit] := by
  rw [encountered, maxRecords_eq]
  change Pass.occluders scene (4094 + 1 + 1) ⟨scene.stream⟩ start = [visit]
  rw [Pass.occluders, if_neg more, met_eq, next_eq, Pass.occluders, if_pos stop, List.append_nil]

theorem walked_eq : walked scene (Canvas.blank 1) engine.holes machine = start.drawRecord scene ⟨scene.stream⟩ := by
  rw [walked, maxRecords_eq]
  change (Pass.walk scene (4094 + 1 + 1) ⟨scene.stream⟩ start).1 = start.drawRecord scene ⟨scene.stream⟩
  rw [Pass.walk_succ more, next_eq, Pass.walk_of_end stop]

theorem pixel?_walked : (walked scene (Canvas.blank 1) engine.holes machine).canvas.pixel? (visit.hole scene).x
    (visit.hole scene).y = some 0 := by
  have tag : (⟨scene.stream⟩ : Record).tag start.machine = 7 := by
    rw [scene_eq]
    decide
  have record : (⟨scene.stream⟩ : Record) = visit.record := by
    rw [scene_eq]
    rfl
  rw [walked_eq, Pass.drawRecord_of_tag tag, record]
  rcases Pass.punchOccluder_cases ⟨visit.record, start.log (.primitive .occluder visit.record.address)⟩ scene with
    ⟨-, -, canvas, -⟩ | ⟨refused, -⟩
  · rw [canvas, Canvas.pixel?_setPixel]
    exact if_pos ⟨rfl, rfl, punches.2.1⟩
  · exact absurd ((Pass.punches_log ..).2 punches) refused

end Single

/-- The sprite of `Single` is visible. -/
theorem rasterize_verdicts_single :
    let c := Context.blank 1
    let a : Active := ⟨racers, defaultPolicy⟩
    Reachable Single.engine ∧ Single.engine.active = some a ∧ c.frames.Sized ∧
      Single.machine.readWord a.profile.stage = a.profile.rasterize ∧ Single.scene.TableWritable Single.machine ∧
      ¬Single.scene.InTable Single.scene.stream ∧
      Returns (Single.engine.hook c Single.machine a.profile.trampoline) fun o =>
        o.holes.toList = [] ∧ Single.scene.spriteStatus o.machine 0 = 2 := by
  intro c a
  have sized : c.frames.Sized := Frames.sized_blank 1
  refine ⟨Single.reachable, rfl, sized, Single.stage, Single.tableWritable, Single.apart, ?_⟩
  have verdicts := rasterize_verdicts Single.reachable rfl sized Single.stage Single.tableWritable Single.apart
  rw [show Scene.read Single.machine (Single.machine.register 0) = Single.scene from rfl,
    show c.frames.scale = 1 from rfl] at verdicts
  refine verdicts.mono fun o verdicts => ⟨verdicts.1, ?_⟩
  have met : Single.visit ∈ encountered Single.scene (Canvas.blank 1) Single.engine.holes Single.machine := by
    rw [Single.encountered_eq]
    exact List.mem_singleton_self _
  have judged := (verdicts.2 Single.visit met).2.2 [] Single.visit [] Single.encountered_eq rfl Single.punches
    (fun _ mem => nomatch mem)
  have zero : StillZero (walked Single.scene (Canvas.blank 1) Single.engine.holes Single.machine) 0
      (Single.visit.hole Single.scene) := (stillZero_zero ..).2 Single.pixel?_walked
  rw [Single.sprite_eq, show (opened Single.scene []).length = 0 from rfl, if_pos zero] at judged
  exact judged

end Redraw.Drome
