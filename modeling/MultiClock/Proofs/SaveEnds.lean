import MultiClock.Proofs.DriveOutcomes
import MultiClock.Proofs.DriveSoundness

/-! Every save comes to an end. The fast method drives the reference until nobody disturbs it any more, and every dependent
at most once; after that all of them are settled. The strict method starts over only when the reference was disturbed. -/

namespace MultiClock

variable {loads : Loads} {kinds : List CoprocessorKind}

theorem ChipSet.Wraps.disciplined [ChipSet σ] {board : σ → Board} (wraps : ChipSet.Wraps board) : ChipSet.Disciplined σ := by
  intro id chips scheduler
  have disciplined := Board.disciplined id (board chips) scheduler
  rw [wraps] at disciplined
  cases sliced : ChipSet.slice id chips scheduler with
  | error fault | ok result =>
    rw [sliced] at disciplined
    exact disciplined

namespace Save

open Machine

section held

variable [ChipSet σ] [Host ω] {permitted : Fault → Prop} {board : σ → Board} {rest : Scheduler → σ → Prop} {stops : Nat}

omit [ChipSet σ] [Host ω] in
theorem Held.account {driving : Drive σ} (held : Held loads kinds board rest stops driving)
    (few : kinds.length ≤ Cartridge.maxCoprocessors) (host : ω) :
    Account (fun _ _ (_ : ω) => True) driving.scheduler driving host :=
  ⟨⟨Scheduler.indexed_of_wiring few held.steered.sound.wired, held.steered.mode, rfl⟩, held.clear,
    driving.report.desyncs.toNat, trivial, Nat.le_refl _⟩

omit [ChipSet σ] in
theorem Held.size {driving : Drive σ} (held : Held loads kinds board rest stops driving) :
    driving.scheduler.threads.size = 3 + kinds.length := Scheduler.size_of_wiring held.steered.sound.wired

/-- What no drive of a dependent changes, and whom it does not set back. -/
structure Onward (board : σ → Board) (before after : Drive σ) : Prop where
  cpu : (board after.chips).cpu = (board before.chips).cpu
  asleep : (after.machine board).asleep .cpu = (before.machine board).asleep .cpu
  forward : ∀ id, id ≠ .cpu → before.scheduler.time id ≤ after.scheduler.time id
  passes : after.report.passes = before.report.passes
  desyncs : after.report.desyncs.toNat = before.report.desyncs.toNat
  resting : ∀ id, before.scheduler.Rests id → after.scheduler.Rests id

omit [ChipSet σ] [Host ω] in
theorem Onward.refl (board : σ → Board) (driving : Drive σ) : Onward board driving driving :=
  ⟨rfl, rfl, fun _ _ => Int.le_refl _, rfl, rfl, fun _ => id⟩

omit [ChipSet σ] [Host ω] in
theorem Onward.trans {first second third : Drive σ} (onward : Onward board first second) (further : Onward board second third) :
    Onward board first third where
  cpu := further.cpu.trans onward.cpu
  asleep := further.asleep.trans onward.asleep
  forward id dependent := Int.le_trans (onward.forward id dependent) (further.forward id dependent)
  passes := further.passes.trans onward.passes
  desyncs := further.desyncs.trans onward.desyncs
  resting id rests := further.resting id (onward.resting id rests)

omit [ChipSet σ] [Host ω] in
theorem Onward.work {before after : Drive σ} (onward : Onward board before after) :
    (after.machine board).burden = (before.machine board).burden := by
  unfold burden
  rw [onward.cpu, onward.asleep]

omit [ChipSet σ] [Host ω] in
theorem Onward.debt {before after : Drive σ} (onward : Onward board before after) :
    (after.machine board).due ≤ (before.machine board).due := due_mono onward.cpu onward.asleep onward.forward

/-- Which threads a method of saving drives. The reference is driven once at first, and again only after a disturbance, when
it is in the middle of its work. -/
structure Permits (loads : Loads) (board : σ → Board) (may : Scheduler → ThreadId → Prop) (method : SaveMethod) : Prop where
  again : ∀ driving : Drive σ, (loads = .own → (driving.machine board).asleep .cpu = 0) → may driving.scheduler .cpu
  onward : ∀ before after : Drive σ, Onward board before after → may before.scheduler .cpu → may after.scheduler .cpu
  unsettled : ∀ scheduler id, id ≠ .cpu → ¬ scheduler.Rests id → may scheduler id
  all : method = .strict → ∀ scheduler id, id ≠ .cpu → may scheduler id

omit [ChipSet σ] [Host ω] in
theorem Permits.anyone (method : SaveMethod) : Permits loads board (fun _ _ => True) method where
  again _ _ := trivial
  onward _ _ _ _ := trivial
  unsettled _ _ _ _ := trivial
  all _ _ _ _ := trivial

omit [ChipSet σ] [Host ω] in
theorem Held.countPass {driving : Drive σ} (held : Held loads kinds board rest stops driving)
    (passes : driving.report.passes.toNat + 1 < 2 ^ 32) {host : ω} :
    (countPass driving).Meets permitted (fun later (_ : ω) => Held loads kinds board rest stops later ∧
      later.scheduler = driving.scheduler ∧ later.machine board = driving.machine board ∧
      later.report.passes.toNat = driving.report.passes.toNat + 1 ∧
      later.report.desyncs.toNat = driving.report.desyncs.toNat) host := by
  refine (count_fits driving.report.passes passes host).bind ?_
  rintro count _ ⟨counted, rfl⟩
  refine .pure ⟨?_, rfl, rfl, counted, rfl⟩
  exact ⟨held.steered, held.outside, held.clear, held.solvent, held.rest⟩

theorem mem_names (few : kinds.length ≤ Cartridge.maxCoprocessors) {scheduler : Scheduler} (wired : scheduler.shape = wiring kinds)
    {id : ThreadId} : id ∈ scheduler.threads.toList.map Thread.id ↔ id.index < 3 + kinds.length := by
  have indexed := Scheduler.indexed_of_wiring few wired
  rw [← Scheduler.size_of_wiring wired, List.mem_map]
  constructor
  · rintro ⟨thread, member, rfl⟩
    exact Scheduler.lt_of_found (indexed.found (Array.mem_toList_iff.mp member))
  · intro present
    obtain ⟨thread, found⟩ := Scheduler.found_of_lt present
    exact ⟨thread, Array.mem_toList_iff.mpr (Array.mem_of_getElem? found), indexed.id_eq found⟩

omit [ChipSet σ] [Host ω] in
theorem Held.due_le {driving : Drive σ} (held : Held loads kinds board rest stops driving)
    (few : kinds.length ≤ Cartridge.maxCoprocessors) : (driving.machine board).due ≤ 2 + kinds.length := by
  have due := (driving.machine board).due_le
  have count := count_of_fits few held.steered.sound
  rw [Cpu.length_dependents] at due
  omega

end held

/-- The threads that the strict method visits once in every pass: those of neither the reference nor the audio. -/
def bystanders (kinds : List CoprocessorKind) : List ThreadId :=
  .ppu :: (List.range kinds.length).map fun position => .coprocessor (UInt8.ofNat position)

theorem names_of_wiring {scheduler : Scheduler} (wired : scheduler.shape = wiring kinds) :
    (scheduler.threads.toList.map Thread.id).filter (fun id => id != .cpu && id != .smp) = bystanders kinds := by
  have names : scheduler.threads.toList.map Thread.id = scheduler.shape.map Prod.fst := by simp [Scheduler.shape]
  have numbered : (kinds.mapIdx fun position kind => (ThreadId.coprocessor (UInt8.ofNat position),
      (Coprocessor.create kind (UInt8.ofNat position)).frequency)).map Prod.fst =
      (List.range kinds.length).map fun position => .coprocessor (UInt8.ofNat position) :=
    List.ext_getElem (by simp) (by simp)
  rw [names, wired, wiring, bystanders]
  simp only [List.map_cons, numbered]
  simp

theorem mem_bystanders (few : kinds.length ≤ Cartridge.maxCoprocessors) {id : ThreadId} (member : id ∈ bystanders kinds) :
    id ≠ .cpu ∧ id.index < 3 + kinds.length := by
  simp only [bystanders, List.mem_cons, List.mem_map, List.mem_range] at member
  rcases member with rfl | ⟨position, inside, rfl⟩
  · exact ⟨by simp, by simp only [ThreadId.index]; omega⟩
  · refine ⟨by simp, ?_⟩
    simp only [Cartridge.maxCoprocessors] at few
    simp only [ThreadId.index, UInt8.toNat_ofNat']
    omega

/-- The level that a save by the strict method comes to, after so many disturbances. -/
def raised {ι : Type} [AddCommMonoid ι] (cost : ThreadId → ι) (others : List ThreadId) (level : ι) (disturbances : Nat) : ι :=
  level + (disturbances + 1) • (cost .smp + cost .cpu) + (cost .smp + (others.map cost).sum)

section drives

variable [ChipSet σ] [Host ω] {permitted : Fault → Prop} {board : σ → Board} {onFrame : σ → StateM ω σ}
  {may : Scheduler → ThreadId → Prop} {ι : Type} [AddCommMonoid ι] {cost : ThreadId → ι} {can : ι → Prop}
  {also rest : ι → Scheduler → σ → Prop} {level : ι} {stops budget : Nat}
  (keeps : Keeps permitted loads kinds board onFrame may cost can also rest) (wraps : ChipSet.Wraps board)
  (few : kinds.length ≤ Cartridge.maxCoprocessors) (enough : vast < budget)

include keeps in
/-- Whoever has room for many passes has room for fewer. -/
theorem Keeps.fewer {less more : Nat} (fewer : less ≤ more) {step last : ι} (room : can (level + more • step + last)) :
    can (level + less • step + last) := by
  obtain ⟨rest, rfl⟩ := Nat.exists_eq_add_of_le fewer
  refine keeps.down _ (rest • step) ?_
  rw [add_nsmul, ← add_assoc] at room
  rwa [add_right_comm]

include keeps wraps few enough

theorem Keeps.drive_settles {driving : Drive σ} {id : ThreadId} (held : Held loads kinds board (rest level) stops driving)
    (room : can (level + cost id)) (dependent : id ≠ .cpu) (present : id.index < 3 + kinds.length)
    (allowed : may driving.scheduler id) (desyncs : driving.report.desyncs.toNat + 1 < 2 ^ 32) {host : ω} :
    (drive onFrame budget id driving).Meets permitted (fun result _ => result.1 = true ∧
      Held loads kinds board (rest (level + cost id)) stops result.2 ∧ result.2.scheduler.Rests id ∧
      Onward board driving result.2) host := by
  have drives : (drive onFrame budget id driving).Meets permitted _ host :=
    keeps.drive_dependent wraps few enough held room dependent (held.size ▸ present) allowed desyncs
  refine (drives.and (drive_judges wraps.disciplined (.anything onFrame) id (held.account few host))).mono ?_
  rintro ⟨undisturbed, later⟩ heard ⟨⟨rfl, held, served, passes, desyncs⟩, _, _, verdict⟩
  cases verdict with
  | undisturbed _ rests alone =>
    refine ⟨rfl, held, rests, served.cpu, served.asleep, served.forward, passes, desyncs, fun other resting => ?_⟩
    by_cases own : other = id
    · exact own ▸ rests
    · obtain ⟨thread, found, settled⟩ := resting
      exact ⟨thread, (alone dependent other own).trans found, settled⟩

theorem Keeps.settle_meets {method : SaveMethod} (permits : Permits loads board may method)
    (free : ∀ id, cost id = 0) (room : can level) {driving : Drive σ} {id : ThreadId}
    (held : Held loads kinds board (rest level) stops driving) (dependent : id ≠ .cpu)
    (present : id.index < 3 + kinds.length) (desyncs : driving.report.desyncs.toNat + 1 < 2 ^ 32) {rounds : Nat} {host : ω} :
    (settle onFrame budget id (rounds + 2) driving).Meets permitted (fun later _ =>
      Held loads kinds board (rest level) stops later ∧ later.scheduler.Rests id ∧ Onward board driving later) host := by
  have returns : ∀ {rounds : Nat} {driving : Drive σ} {host : ω}, driving.scheduler.Rests id →
      (settle onFrame budget id (rounds + 1) driving).Meets permitted (fun later _ => later = driving) host := by
    rintro rounds driving host ⟨thread, found, settled⟩
    rw [settle_succ found, if_pos settled]
    exact .pure rfl
  by_cases rests : driving.scheduler.Rests id
  · refine (returns rests).mono ?_
    rintro _ _ rfl
    exact ⟨held, rests, .refl board _⟩
  · obtain ⟨thread, found⟩ := Scheduler.found_of_lt (held.size ▸ present)
    have awake : ¬ thread.settled = true := fun settled => rests ⟨thread, found, settled⟩
    rw [settle_succ found, if_neg awake]
    have still : level + cost id = level := by rw [free, add_zero]
    refine (keeps.drive_settles wraps few enough held (by rwa [still]) dependent present
      (permits.unsettled _ id dependent rests) desyncs).bind ?_
    rintro ⟨_, later⟩ heard ⟨_, held, rests, onward⟩
    rw [still] at held
    refine (returns rests).mono ?_
    rintro _ _ rfl
    exact ⟨held, rests, onward⟩

theorem Keeps.settleEach_meets {method : SaveMethod} (permits : Permits loads board may method)
    (free : ∀ id, cost id = 0) (room : can level) (threads : List ThreadId)
    (dependents : ∀ id ∈ threads, id ≠ .cpu ∧ id.index < 3 + kinds.length) {driving : Drive σ}
    (held : Held loads kinds board (rest level) stops driving) (desyncs : driving.report.desyncs.toNat + 1 < 2 ^ 32) {host : ω} :
    (settleEach onFrame budget threads driving).Meets permitted (fun later _ =>
      Held loads kinds board (rest level) stops later ∧ (∀ id ∈ threads, later.scheduler.Rests id) ∧ Onward board driving later) host := by
  induction threads generalizing driving host with
  | nil => exact .pure ⟨held, by simp, .refl board driving⟩
  | cons first others ih =>
    obtain ⟨⟨dependent, present⟩, dependents⟩ := List.forall_mem_cons.mp dependents
    obtain ⟨rounds, rfl⟩ : ∃ rounds, budget = rounds + 2 := ⟨budget - 2, by unfold vast at enough; omega⟩
    rw [settleEach]
    refine (keeps.settle_meets wraps few enough permits free room held dependent present desyncs).bind fun settled heard served => ?_
    obtain ⟨held, rests, onward⟩ := served
    refine (ih dependents held (onward.desyncs ▸ desyncs)).mono fun later _ ends => ?_
    obtain ⟨held, resting, further⟩ := ends
    exact ⟨held, List.forall_mem_cons.mpr ⟨further.resting first rests, resting⟩, onward.trans further⟩

/-- The reference is disturbed only while it has work left. -/
theorem Keeps.driveUndisturbed_meets {method : SaveMethod} (permits : Permits loads board may method)
    (free : ∀ id, cost id = 0) (fits : can level) (rounds : Nat) {driving : Drive σ}
    (held : Held loads kinds board (rest level) (stops + 1) driving)
    (allowed : may driving.scheduler .cpu) (room : (driving.machine board).burden < rounds)
    (desyncs : driving.report.desyncs.toNat + (driving.machine board).burden + 1 < 2 ^ 32) {host : ω} :
    (driveUndisturbed onFrame budget .cpu rounds driving).Meets permitted (fun later _ =>
      Held loads kinds board (rest level) stops later ∧ later.scheduler.Rests .cpu ∧ later.report.passes = driving.report.passes ∧
      later.report.desyncs.toNat ≤ driving.report.desyncs.toNat + (driving.machine board).burden ∧
      (loads = .own → later.report.desyncs.toNat ≤ driving.report.desyncs.toNat + (driving.machine board).due)) host := by
  -- Every disturbed drive lowers the burden, which is below the number of rounds.
  induction rounds generalizing driving host with
  | zero => omega
  | succ rounds ih =>
    rw [driveUndisturbed]
    have still : level + cost .cpu = level := by rw [free, add_zero]
    have drives : (drive onFrame budget .cpu driving).Meets permitted _ host :=
      keeps.drive_reference wraps few enough held (by rwa [still]) allowed (by omega)
    rw [still] at drives
    refine (drives.and (drive_judges wraps.disciplined (.anything onFrame) .cpu (held.account few host))).bind ?_
    rintro ⟨undisturbed, later⟩ heard ⟨⟨passes, ends⟩, _, _, verdict⟩
    rcases ends with ⟨rfl, held, same⟩ | ⟨rfl, held, count, left, debt⟩
    · cases verdict with
      | undisturbed _ rests =>
        have same : later.report.desyncs.toNat = driving.report.desyncs.toNat := same
        exact .pure ⟨held, rests, passes, by omega, fun _ => by omega⟩
    · have allowed := permits.again later fun own => (debt own).2
      refine (ih held allowed (by omega) (by omega)).mono fun last _ ends => ?_
      obtain ⟨held, rests, counted, most, fewer⟩ := ends
      refine ⟨held, rests, counted.trans passes, by omega, fun own => ?_⟩
      have fewer := fewer own
      have debt := (debt own).1
      omega

/-- Dependents are driven one after the other without a disturbance. -/
theorem Keeps.pass_dependents (all : ∀ scheduler id, id ≠ .cpu → may scheduler id) (threads : List ThreadId)
    (dependents : ∀ id ∈ threads, id ≠ .cpu ∧ id.index < 3 + kinds.length) {driving : Drive σ}
    (held : Held loads kinds board (rest level) stops driving) (room : can (level + (threads.map cost).sum))
    (desyncs : driving.report.desyncs.toNat + 1 < 2 ^ 32) {host : ω} :
    (pass onFrame budget threads driving).Meets permitted (fun result _ => result.1 = none ∧
      Held loads kinds board (rest (level + (threads.map cost).sum)) stops result.2 ∧ Onward board driving result.2) host := by
  induction threads generalizing level driving host with
  | nil =>
    rw [List.map_nil, List.sum_nil, add_zero]
    exact .pure ⟨rfl, held, .refl board driving⟩
  | cons first others ih =>
    obtain ⟨⟨dependent, present⟩, dependents⟩ := List.forall_mem_cons.mp dependents
    rw [List.map_cons, List.sum_cons, ← add_assoc] at room ⊢
    rw [pass]
    refine (keeps.drive_settles wraps few enough held (keeps.down _ _ room) dependent present (all _ first dependent) desyncs).bind ?_
    rintro ⟨_, driven⟩ heard ⟨rfl, held, _, onward⟩
    refine (ih dependents held room (onward.desyncs ▸ desyncs)).mono fun result _ ends => ?_
    exact ⟨ends.1, ends.2.1, onward.trans ends.2.2⟩

theorem Keeps.pass_strict (permits : Permits loads board may .strict) (others : List ThreadId)
    (dependents : ∀ id ∈ others, id ≠ .cpu ∧ id.index < 3 + kinds.length) {driving : Drive σ}
    (held : Held loads kinds board (rest level) (stops + 1) driving) (allowed : may driving.scheduler .cpu)
    (room : can (level + (cost .smp + cost .cpu) + (cost .smp + (others.map cost).sum)))
    (desyncs : driving.report.desyncs.toNat + 1 < 2 ^ 32) {host : ω} :
    (pass onFrame budget ([.smp, .cpu, .smp] ++ others) driving).Meets permitted (fun result _ =>
      result.2.report.passes = driving.report.passes ∧
      ((result.1 = none ∧
          Held loads kinds board (rest (level + (cost .smp + cost .cpu) + (cost .smp + (others.map cost).sum))) stops result.2 ∧
          result.2.report.desyncs.toNat = driving.report.desyncs.toNat) ∨
        (∃ id, result.1 = some id) ∧ Held loads kinds board (rest (level + (cost .smp + cost .cpu))) (stops + 1) result.2 ∧
        result.2.report.desyncs.toNat = driving.report.desyncs.toNat + 1 ∧
        (result.2.machine board).burden < (driving.machine board).burden ∧
        (loads = .own → (result.2.machine board).due < (driving.machine board).due ∧ (result.2.machine board).asleep .cpu = 0)))
      host := by
  have audio : (ThreadId.smp : ThreadId) ≠ .cpu ∧ ThreadId.smp.index < 3 + kinds.length :=
    ⟨by simp, by simp only [ThreadId.index]; omega⟩
  have early : can (level + cost .smp + cost .cpu) := by
    rw [add_assoc]
    exact keeps.down _ _ room
  rw [List.cons_append, pass]
  -- The audio goes first. Only the reference, which comes next, can be disturbed, so the rest of a pass is never cut short.
  refine (keeps.drive_settles wraps few enough held (keeps.down _ _ early) audio.1 audio.2 (permits.all rfl _ _ audio.1) desyncs).bind ?_
  rintro ⟨_, first⟩ heard ⟨rfl, held, _, onward⟩
  simp only [↓reduceIte, List.cons_append] at held onward ⊢
  rw [pass]
  refine (keeps.drive_reference wraps few enough held early (permits.onward _ _ onward allowed) (onward.desyncs ▸ desyncs)).bind ?_
  rintro ⟨_, second⟩ heard ⟨passes, ⟨rfl, held, same⟩ | ⟨rfl, held, count, left, debt⟩⟩
  · simp only [↓reduceIte, List.nil_append] at held same passes ⊢
    rw [add_assoc] at held
    have rests : ∀ id ∈ ThreadId.smp :: others, id ≠ .cpu ∧ id.index < 3 + kinds.length := List.forall_mem_cons.mpr ⟨audio, dependents⟩
    have later : second.report.desyncs.toNat + 1 < 2 ^ 32 := by
      rw [same, onward.desyncs]
      exact desyncs
    refine (keeps.pass_dependents wraps few enough (permits.all rfl) _ rests held room later).mono ?_
    rintro result _ ⟨undisturbed, held, further⟩
    refine ⟨further.passes.trans (passes.trans onward.passes), .inl ⟨undisturbed, held, ?_⟩⟩
    exact further.desyncs.trans (same.trans onward.desyncs)
  · simp only [Bool.false_eq_true, ↓reduceIte] at held count passes left debt ⊢
    rw [add_assoc] at held
    refine .pure ⟨passes.trans onward.passes, .inr ⟨⟨_, rfl⟩, held, ?_, ?_, fun own => ⟨?_, (debt own).2⟩⟩⟩
    · rw [count, onward.desyncs]
    · exact onward.work ▸ left
    · exact Nat.lt_of_lt_of_le (debt own).1 onward.debt

theorem Keeps.strict_meets (permits : Permits loads board may .strict) (others : List ThreadId)
    (dependents : ∀ id ∈ others, id ≠ .cpu ∧ id.index < 3 + kinds.length) (rounds : Nat) {driving : Drive σ}
    (held : Held loads kinds board (rest level) (stops + 1) driving) (allowed : may driving.scheduler .cpu)
    (left : (driving.machine board).burden < rounds) (room : can (raised cost others level (driving.machine board).burden))
    (desyncs : driving.report.desyncs.toNat + (driving.machine board).burden + 1 < 2 ^ 32)
    (passes : driving.report.passes.toNat + (driving.machine board).burden + 1 < 2 ^ 32) {host : ω} :
    (strict onFrame budget ([.smp, .cpu, .smp] ++ others) rounds driving).Meets permitted (fun later _ =>
      ∃ disturbances, later.report.desyncs.toNat = driving.report.desyncs.toNat + disturbances ∧
        Held loads kinds board (rest (raised cost others level disturbances)) stops later ∧
        (loads = .own → disturbances ≤ (driving.machine board).due)) host := by
  -- A disturbance ends the pass and lowers the burden of the reference, which is below the number of rounds.
  induction rounds generalizing level driving host with
  | zero => omega
  | succ rounds ih =>
    rw [strict]
    refine (held.countPass (by omega)).bind fun counted heard ends => ?_
    obtain ⟨held, same, machine, passed, none⟩ := ends
    rw [← machine] at left room desyncs passes ⊢
    rw [← same] at allowed
    have once : can (level + (cost .smp + cost .cpu) + (cost .smp + (others.map cost).sum)) := by
      have once := keeps.fewer (Nat.le_add_left 1 _) room
      rwa [one_nsmul] at once
    refine (keeps.pass_strict wraps few enough permits others dependents held allowed once (by omega)).bind ?_
    rintro ⟨_, later⟩ heard ⟨passes, ⟨rfl, held, same⟩ | ⟨⟨id, rfl⟩, held, count, fewer, debt⟩⟩
    · simp only at held same ⊢
      refine .pure ⟨0, by omega, ?_, fun _ => Nat.zero_le _⟩
      rwa [raised, Nat.zero_add, one_nsmul]
    · have fewer : (later.machine board).burden < (counted.machine board).burden := fewer
      simp only at held count passes ⊢
      have next : ∀ more, raised cost others (level + (cost .smp + cost .cpu)) more = raised cost others level (more + 1) := by
        intro more
        rw [raised, raised, add_assoc level, ← succ_nsmul']
      have room : can (raised cost others (level + (cost .smp + cost .cpu)) (later.machine board).burden) := by
        rw [next]
        exact keeps.fewer (by omega) room
      refine .after_report ((ih held (permits.again later fun own => (debt own).2) (by omega) room (by omega)
        (by rw [passes]; omega)).mono fun last _ ends => ?_)
      obtain ⟨more, counted, held, few⟩ := ends
      refine ⟨more + 1, by omega, next more ▸ held, fun own => ?_⟩
      have debt : (later.machine board).due < _ := (debt own).1
      have few := few own
      omega

/-- After the reference, every dependent is driven at most once. -/
theorem Keeps.fast_meets {method : SaveMethod} (permits : Permits loads board may method) (free : ∀ id, cost id = 0)
    {driving : Drive σ} (held : Held loads kinds board (rest level) (stops + 1) driving) (room : can level)
    (allowed : may driving.scheduler .cpu) (fewer : driving.report.desyncs.toNat = 0) (passes : driving.report.passes.toNat = 0)
    {host : ω} :
    (fast onFrame budget driving).Meets permitted (fun later _ =>
      Held loads kinds board (rest level) stops later ∧ later.report.passes.toNat = 1 ∧
      (loads = .own → later.report.desyncs.toNat ≤ (driving.machine board).due)) host := by
  obtain ⟨rounds, rfl⟩ := Nat.exists_eq_add_one.mpr (Nat.zero_lt_of_lt enough)
  have long : 1655 < rounds + 1 := Nat.lt_of_le_of_lt (by unfold vast; omega) enough
  rw [fast]
  refine (held.countPass (by omega)).bind fun counted heard ends => ?_
  obtain ⟨held, same, machine, passed, none⟩ := ends
  have work := held.steered.burden_le few
  rw [← same] at allowed
  refine (keeps.driveUndisturbed_meets wraps few enough permits free room (rounds + 1) held allowed
    (Nat.lt_of_le_of_lt work long) (by omega)).bind ?_
  intro driven heard ends
  obtain ⟨later, rests, count, most, debt⟩ := ends
  have inside : ∀ id ∈ (driven.scheduler.threads.toList.map Thread.id).filter (· != .cpu), id ≠ .cpu ∧ id.index < 3 + kinds.length := by
    intro id member
    rw [List.mem_filter, mem_names few later.steered.sound.wired, bne_iff_ne] at member
    exact member.symm
  refine (keeps.settleEach_meets wraps few enough permits free room _ inside later (by omega)).bind ?_
  intro settled heard ends
  obtain ⟨held, resting, onward⟩ := ends
  -- Everybody rests after one drive each, so no round of `settleRest` is needed.
  have quiescent : settled.scheduler.quiescent = true := by
    refine quiescent_of_rests (Scheduler.indexed_of_wiring few held.steered.sound.wired) fun thread member => ?_
    by_cases reference : thread.id = .cpu
    · exact reference ▸ onward.resting .cpu rests
    · refine resting _ (List.mem_filter.mpr ⟨?_, bne_iff_ne.mpr reference⟩)
      rw [mem_names few later.steered.sound.wired, ← mem_names few held.steered.sound.wired]
      exact List.mem_map.mpr ⟨thread, Array.mem_toList_iff.mpr member, rfl⟩
  rw [settleRest, if_pos quiescent]
  refine .pure ⟨held, ?_, fun own => ?_⟩
  · rw [onward.passes, count, passed, passes]
  · have debt := debt own
    have same := onward.desyncs
    rw [machine] at debt
    omega

end drives

/-- What a save comes to when it is over: all threads are settled, and the machine is handed back as it is. -/
structure Ended (loads : Loads) (kinds : List CoprocessorKind) (board : σ → Board) (rest : Scheduler → σ → Prop) (method : SaveMethod)
    (driving : Drive σ) : Prop where
  held : ∃ last : Drive σ, Held loads kinds board rest 0 last ∧ last.scheduler.quiescent = true ∧ driving.chips = last.chips ∧
    driving.scheduler = { last.scheduler with mode := .run, active := .cpu, desynchronized := false }
  desyncs : loads = .own → driving.report.desyncs.toNat ≤ 2 + kinds.length
  fast : method = .fast → driving.report.passes.toNat = 1
  strict : method = .strict → driving.report.passes.toNat = driving.report.desyncs.toNat + 1

theorem raised_free {ι : Type} [AddCommMonoid ι] {cost : ThreadId → ι} (free : ∀ id, cost id = 0) (others : List ThreadId) (level : ι)
    (disturbances : Nat) : raised cost others level disturbances = level := by
  have sum : (others.map cost).sum = 0 := List.sum_eq_zero fun paid member => by
    obtain ⟨id, _, rfl⟩ := List.mem_map.mp member
    exact free id
  simp only [raised, free, sum, add_zero, nsmul_zero]

section saves
variable [ChipSet σ] [Host ω] {permitted : Fault → Prop} {board : σ → Board} {onFrame : σ → StateM ω σ}
  {may : Scheduler → ThreadId → Prop} {ι : Type} [AddCommMonoid ι] {cost : ThreadId → ι} {can : ι → Prop}
  {also rest : ι → Scheduler → σ → Prop} {budget : Nat} (keeps : Keeps permitted loads kinds board onFrame may cost can also rest)
  (level : ι) (wraps : ChipSet.Wraps board)
  (few : kinds.length ≤ Cartridge.maxCoprocessors) (enough : vast < budget) {method : SaveMethod}
  (permits : Permits loads board may method) (free : method = .fast → ∀ id, cost id = 0)
  (room : ∀ disturbances ≤ 1655, can (raised cost (bystanders kinds) level disturbances))
include keeps wraps few enough permits free room

/-- Settling all threads ends. The fast method takes one pass, and what disturbs the strict one costs the bystanders. -/
theorem Keeps.settleAll_meets {start : Drive σ} (held : Held loads kinds board (rest level) 1 start)
    (allowed : may start.scheduler .cpu) (undisturbed : start.report.desyncs.toNat = 0) (unpassed : start.report.passes.toNat = 0)
    (host : ω) :
    (settleAll onFrame budget method start).Meets permitted (fun later _ => ∃ disturbances,
      Held loads kinds board (rest (raised cost (bystanders kinds) level disturbances)) 0 later ∧
      (method = .fast → later.report.passes.toNat = 1) ∧
      (loads = .own → disturbances ≤ 2 + kinds.length ∧ later.report.desyncs.toNat ≤ 2 + kinds.length)) host := by
  have due := held.due_le few
  have work := held.steered.burden_le few
  have long : 1655 < budget := Nat.lt_of_le_of_lt (by unfold vast; omega) enough
  cases method with
  | fast =>
    have here : can level := raised_free (free rfl) (bystanders kinds) level 0 ▸ room 0 (Nat.zero_le _)
    refine (keeps.fast_meets wraps few enough permits (free rfl) held here allowed undisturbed unpassed).mono ?_
    intro later _ ends
    refine ⟨0, ?_, fun _ => ends.2.1, fun own => ⟨Nat.zero_le _, Nat.le_trans (ends.2.2 own) due⟩⟩
    exact (raised_free (free rfl) (bystanders kinds) level 0).symm ▸ ends.1
  | strict =>
    have several : 1 < start.scheduler.threads.size := by
      rw [held.size]
      omega
    simp only [settleAll, strictOrder, if_pos several, names_of_wiring held.steered.sound.wired]
    refine (keeps.strict_meets wraps few enough permits _ (fun id member => mem_bystanders few member) budget held allowed
      (Nat.lt_of_le_of_lt work long) (room _ work) (by omega) (by omega)).mono ?_
    intro later _ ends
    obtain ⟨disturbances, count, held, most⟩ := ends
    refine ⟨disturbances, held, by simp, fun own => ?_⟩
    have most := most own
    omega

/-- A save ends, unless a clock overflows. -/
theorem Keeps.runToSave_meets {scheduler : Scheduler} {chips : σ}
    (sound : Machine.Sound loads kinds ⟨scheduler, board chips⟩) (outside : scheduler.entered = false)
    (present : scheduler.active.index < scheduler.threads.size) (first : may (steered scheduler) .cpu)
    (begins : rest level (steered scheduler) chips) {host : ω} :
    (runToSave onFrame budget method scheduler chips).Meets permitted (fun driving _ => ∃ disturbances,
      Ended loads kinds board (rest (raised cost (bystanders kinds) level disturbances)) method driving ∧
      (loads = .own → disturbances ≤ 2 + kinds.length)) host := by
  have started : Steered loads kinds ⟨steered scheduler, board chips⟩ := ⟨sound.withScheduler rfl sound.free, rfl, present⟩
  have held : Held loads kinds board (rest level) 1 (⟨steered scheduler, chips, SaveReport.zero⟩ : Drive σ) :=
    ⟨started, outside, rfl, started.solvent few, begins⟩
  have settles := keeps.settleAll_meets level wraps few enough permits free room held first rfl rfl host
  have judged : (settleAll onFrame budget method ⟨steered scheduler, chips, SaveReport.zero⟩).Meets (· ≠ .notQuiescent) _ host :=
    settleAll_settles wraps.disciplined (.anything onFrame) method (held.account few host) rfl
  rw [runToSave_eq outside]
  refine (settles.and judged).bind ?_
  rintro last heard ⟨⟨disturbances, held, fast, desyncs⟩, account, quiescent, strict⟩
  have some_thread : ¬ last.scheduler.threads.size ≤ ThreadId.cpu.index := by
    have size := held.size
    simp only [ThreadId.index]
    omega
  have settled := quiescent
  obtain ⟨held_steered, outside, clear, solvent, rested⟩ := held
  obtain ⟨scheduler, chips, report⟩ := last
  have free : ¬ scheduler.entered = true := Bool.eq_false_iff.mp outside
  simp only at quiescent some_thread
  simp only [handBack, quiescent, Bool.not_true, Bool.false_eq_true, if_false, Scheduler.setMode, if_neg free, Run.ofExcept_ok,
    pure_bind, Scheduler.setActive, if_neg some_thread]
  refine .after_report (.pure ⟨disturbances, ⟨⟨⟨scheduler, chips, report⟩, ?_, settled, rfl, ?_⟩, fun own => (desyncs own).2, fast,
    strict⟩, fun own => (desyncs own).1⟩)
  · exact ⟨held_steered, outside, clear, solvent, rested⟩
  · rfl

end saves

/-- Nothing has to be kept for a save to end. -/
theorem keeps_nothing [ChipSet σ] [Host ω] {board : σ → Board} {onFrame : σ → StateM ω σ}
    (frames : ∃ cheats, ∀ chips (host : ω), board (onFrame chips host).1 = ((board chips).completeFrame cheats host).1) :
    Keeps (· = .clockOverflow) loads kinds board onFrame (fun _ _ => True) (fun _ => (0 : Nat)) (fun _ => True) (fun _ _ _ => True)
      (fun _ _ _ => True) where
  down _ _ _ := trivial
  calm _ _ _ _ _ _ _ := rfl
  begins _ _ _ _ _ _ _ _ := trivial
  turn _ _ _ _ _ _ _ _ _ _ _ _ _ := trivial
  stop _ _ _ _ _ _ _ _ _ _ _ := trivial
  enter _ _ _ _ _ _ := trivial
  frame _ _ _ _ _ := trivial
  board := frames

end Save
end MultiClock
