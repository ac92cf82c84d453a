import MultiClock.Proofs.Chronicle

/-! Rules for properties that also concern what the host has heard. A slice may end with a frame, and until the host has seen
to that frame another property holds. Nothing is said of runs that break off. -/

namespace MultiClock

variable {kinds : List CoprocessorKind}

/-- A property of the clocks, of the chips and of their host that every slice keeps, and the one that is due once a slice ended
with a frame. -/
structure Upheld [ChipSet σ] [Host ω] (kinds : List CoprocessorKind) (board : σ → Board) (onFrame : σ → StateM ω σ)
    (holds due : (ThreadId → Int) → σ → ω → Prop) : Prop where
  slice : ∀ scheduler chips host, Machine.Sound .own kinds ⟨scheduler, board chips⟩ → Machine.Inside ⟨scheduler, board chips⟩ →
    holds scheduler.time chips host → ∀ action later moved middle notices, Machine.Sliced board .own kinds scheduler chips action later moved middle notices →
      if middle.transfer = some (.leave .frame) then due later.time moved host else holds later.time moved host
  frame : ∀ scheduler chips host, Machine.Sound .own kinds ⟨scheduler, board chips⟩ → due scheduler.time chips host →
    holds scheduler.time (onFrame chips host).1 (onFrame chips host).2
  hears : ∀ times chips host notice, holds times chips host → holds times chips (Host.notice notice host)
  hears_due : ∀ times chips host notice, due times chips host → due times chips (Host.notice notice host)
  board : ∃ cheats, ∀ chips (host : ω), board (onFrame chips host).1 = ((board chips).completeFrame cheats host).1

namespace Machine

/-- After a slice control is with the host exactly if the slice asked for that. -/
theorem Sliced.leaves [ChipSet σ] {board : σ → Board} (wraps : ChipSet.Wraps board) {loads : Loads} {scheduler : Scheduler} {chips : σ}
    {action : Action} {later middle : Scheduler} {moved : σ} {notices : List Notice}
    (sliced : Sliced board loads kinds scheduler chips action later moved middle notices) (indexed : scheduler.Indexed)
    (inside : scheduler.entered = true) :
    if action.leaves then middle.transfer = some (.leave later.event) else ∀ event, middle.transfer ≠ some (.leave event) := by
  have shown := sliced.shown wraps
  have entered : middle.entered = true := ((((Board.disciplined _ _ _).of_ok shown).1.kept indexed).entered).trans inside
  have ends : later.entered = !action.leaves := sliced.took.entered
  cases sliced.turn with
  | stays alike free =>
    cases shown.symm.trans alike
    have stays : action.leaves = false := by simpa [entered] using ends
    simp [stays, free]
  | resumes alike asked =>
    cases shown.symm.trans alike
    have stays : action.leaves = false := by simpa [Scheduler.transferTo, Scheduler.modifyThread, entered] using ends
    simp [stays, asked]
  | leaves alike asked =>
    cases shown.symm.trans alike
    have returns : action.leaves = true := by simpa using ends
    rwa [if_pos returns]

end Machine

namespace Upheld

open Machine

variable [ChipSet σ] [Host ω] {board : σ → Board} {onFrame : σ → StateM ω σ} {holds due : (ThreadId → Int) → σ → ω → Prop}

/-- No claim about how a run breaks off. -/
private abbrev unspoken : Fault → Prop := fun _ => True

/-- A sound machine with the property. -/
def Kept (kinds : List CoprocessorKind) (board : σ → Board) (holds : (ThreadId → Int) → σ → ω → Prop) (scheduler : Scheduler)
    (chips : σ) (host : ω) : Prop :=
  Sound .own kinds ⟨scheduler, board chips⟩ ∧ holds scheduler.time chips host

/-- A sound machine that control was just taken from. -/
def Left (kinds : List CoprocessorKind) (board : σ → Board) (holds due : (ThreadId → Int) → σ → ω → Prop) (scheduler : Scheduler)
    (chips : σ) (host : ω) : Prop :=
  Sound .own kinds ⟨scheduler, board chips⟩ ∧
    if scheduler.event = .frame then due scheduler.time chips host else holds scheduler.time chips host

namespace Kept
variable {scheduler later : Scheduler} {chips : σ} {host : ω}

omit [ChipSet σ] [Host ω] in
theorem active (kept : Kept kinds board holds scheduler chips host) {id : ThreadId} (set : scheduler.setActive id = .ok later) :
    Kept kinds board holds later chips host := by
  rw [Scheduler.setActive] at set
  split at set
  next => cases set
  next =>
    split at set
    next => cases set
    next =>
      cases set
      exact ⟨kept.1.withScheduler rfl kept.1.free, kept.2⟩

omit [ChipSet σ] [Host ω] in
theorem mode (kept : Kept kinds board holds scheduler chips host) {mode : Scheduler.Mode} (set : scheduler.setMode mode = .ok later) :
    Kept kinds board holds later chips host := by
  rw [Scheduler.setMode] at set
  split at set
  next => cases set
  next =>
    cases set
    exact ⟨kept.1.withScheduler rfl kept.1.free, kept.2⟩

end Kept

variable (upheld : Upheld kinds board onFrame holds due)
include upheld

theorem kept_hears {scheduler : Scheduler} {chips : σ} {host : ω} (kept : Kept kinds board holds scheduler chips host)
    (notice : Notice) : Kept kinds board holds scheduler chips (Host.notice notice host) :=
  ⟨kept.1, upheld.hears _ _ _ notice kept.2⟩

theorem kept_hears_all {scheduler : Scheduler} {chips : σ} {host : ω} (kept : Kept kinds board holds scheduler chips host)
    (notices : List Notice) : Kept kinds board holds scheduler chips (notices.foldr Host.notice host) :=
  List.foldrRecOn notices Host.notice kept fun _ kept notice _ => upheld.kept_hears kept notice

theorem left_hears {scheduler : Scheduler} {chips : σ} {host : ω} (left : Left kinds board holds due scheduler chips host)
    (notice : Notice) : Left kinds board holds due scheduler chips (Host.notice notice host) := by
  refine ⟨left.1, ?_⟩
  have told := left.2
  split at told
  next frame => exact (if_pos frame).mpr (upheld.hears_due _ _ _ notice told)
  next other => exact (if_neg other).mpr (upheld.hears _ _ _ notice told)

theorem left_hears_all {scheduler : Scheduler} {chips : σ} {host : ω} (left : Left kinds board holds due scheduler chips host)
    (notices : List Notice) : Left kinds board holds due scheduler chips (notices.foldr Host.notice host) :=
  List.foldrRecOn notices Host.notice left fun _ left notice _ => upheld.left_hears left notice

section
variable (wraps : ChipSet.Wraps board) (few : kinds.length ≤ Cartridge.maxCoprocessors)
include wraps few

theorem turn {scheduler : Scheduler} {chips : σ} {host : ω} (kept : Kept kinds board holds scheduler chips host)
    (ready : Inside ⟨scheduler, board chips⟩) :
    Meets unspoken (Scheduler.Turned (fun later moved => Kept kinds board holds later moved host ∧ Inside ⟨later, board moved⟩)
      (fun later moved => Left kinds board holds due later moved host)) (ChipSet.slice scheduler.active chips scheduler) := by
  apply kept.1.slice_turned wraps few ready fun _ => trivial
  intro action later moved middle notices sliced
  have goes := upheld.slice scheduler chips host kept.1 ready kept.2 action later moved middle notices sliced
  have leaves := sliced.leaves wraps (Scheduler.indexed_of_wiring few kept.1.wired) ready.entered
  split at leaves
  next returns =>
    rw [if_pos returns]
    refine ⟨sliced.sound, ?_⟩
    rw [leaves] at goes
    simpa using goes
  next stays =>
    rw [if_neg stays]
    rw [if_neg (leaves .frame)] at goes
    exact ⟨⟨sliced.sound, goes⟩, sliced.took.inside (by simpa using stays)⟩

theorem runSlices (budget : Nat) {scheduler : Scheduler} {chips : σ} {host : ω} (kept : Kept kinds board holds scheduler chips host)
    (ready : Inside ⟨scheduler, board chips⟩) :
    (scheduler.runSlices budget chips).Meets unspoken (fun result later => Left kinds board holds due result.1 result.2 later) host := by
  -- The host hears of a slice after it was made, and of the transfer after that.
  induction budget generalizing scheduler chips host with
  | zero => exact .throw trivial
  | succ budget ih =>
    rw [Scheduler.runSlices]
    have turned := upheld.turn wraps few kept ready
    cases sliced : ChipSet.slice scheduler.active chips scheduler with
    | error fault => exact .throw trivial
    | ok result =>
      obtain ⟨moved, later, notices⟩ := result
      rw [sliced] at turned
      simp only [Meets, Scheduler.Turned] at turned
      simp only [Run.ofExcept_ok, pure_bind]
      apply Run.Meets.after_reportAll
      cases asked : later.transfer with
      | none =>
        simp only [asked] at turned
        exact ih (upheld.kept_hears_all turned.1 notices) turned.2
      | some transfer =>
        cases transfer with
        | resume target =>
          simp only [asked] at turned
          apply Run.Meets.after_report
          exact ih (upheld.kept_hears (upheld.kept_hears_all turned.1 notices) _) turned.2
        | leave event =>
          simp only [asked] at turned
          apply Run.Meets.after_report
          exact .pure (upheld.left_hears (upheld.left_hears_all turned notices) _)

theorem enter (budget : Nat) {scheduler : Scheduler} {chips : σ} {host : ω} (kept : Kept kinds board holds scheduler chips host) :
    (scheduler.enter budget chips).Meets unspoken (fun result later => Left kinds board holds due result.1 result.2 later) host := by
  rw [Scheduler.enter]
  split
  next => exact .throw trivial
  next outside =>
    split
    next => exact .throw trivial
    next found =>
      have present : scheduler.active.index < scheduler.threads.size := by simpa [Scheduler.thread?] using found
      have times : (scheduler.transferTo scheduler.active).time = scheduler.time := funext (scheduler.time_transferTo scheduler.active)
      apply upheld.runSlices wraps few budget
      · exact ⟨(kept.1.transferTo _).withScheduler rfl fun _ => rfl, times.symm ▸ kept.2⟩
      · exact ⟨rfl, rfl, by simpa [Scheduler.transferTo] using present⟩

end

/-- Once the host has seen to a frame, nothing is due any more. -/
theorem completeFrame {scheduler : Scheduler} {chips : σ} {host : ω} (left : Left kinds board holds due scheduler chips host)
    (frame : scheduler.event = .frame) :
    Run.Meets unspoken (fun later told => Kept kinds board holds scheduler later told) (liftM (onFrame chips) : Run ω σ) host := by
  obtain ⟨cheats, same⟩ := upheld.board
  obtain ⟨sound, told⟩ := left
  apply Run.Meets.lift
  refine ⟨?_, upheld.frame scheduler chips host sound ((if_pos frame).mp told)⟩
  rw [same]
  exact sound.completeFrame cheats host

/-- Handing the machine back changes nothing that counts. -/
theorem handBack {method : SaveMethod} {driving : Save.Drive σ} {host : ω}
    (kept : Kept kinds board holds driving.scheduler driving.chips host) :
    (Save.handBack method driving).Meets unspoken (fun last later => Kept kinds board holds last.scheduler last.chips later) host := by
  obtain ⟨scheduler, chips, report⟩ := driving
  rw [Save.handBack]
  split
  next => exact .throw trivial
  next =>
    cases normal : scheduler.setMode .run with
    | error => exact .throw trivial
    | ok steered =>
      simp only [Run.ofExcept_ok, pure_bind]
      cases first : steered.setActive .cpu with
      | error => exact .throw trivial
      | ok last =>
        simp only [Run.ofExcept_ok, pure_bind]
        apply Run.Meets.after_report
        have back := (kept.mode normal).active first
        have clear : Kept kinds board holds last.clearDesynchronized chips host := ⟨back.1.withScheduler rfl back.1.free, back.2⟩
        exact .pure (upheld.kept_hears clear _)

section
variable (wraps : ChipSet.Wraps board) (few : kinds.length ≤ Cartridge.maxCoprocessors)
include wraps few

theorem runToFrame (budget rounds : Nat) {scheduler : Scheduler} {chips : σ} {host : ω}
    (kept : Kept kinds board holds scheduler chips host) :
    (Scheduler.runToFrame onFrame budget rounds scheduler chips).Meets unspoken
      (fun result later => Kept kinds board holds result.1 result.2 later) host := by
  induction rounds generalizing scheduler chips host with
  | zero => exact .throw trivial
  | succ rounds ih =>
    rw [Scheduler.runToFrame]
    apply (upheld.enter wraps few budget kept).bind
    intro result told left
    obtain ⟨later, moved⟩ := result
    cases event : later.event with
    | frame =>
      simp only [event]
      exact (upheld.completeFrame left event).bind fun _ _ kept => .pure kept
    | synchronized | desynchronized =>
      simp only [event]
      exact ih ⟨left.1, (if_neg (by simp [event])).mp left.2⟩

theorem enterUntilPoint (budget : Nat) (thread : ThreadId) (rounds : Nat) {driving : Save.Drive σ} {host : ω}
    (kept : Kept kinds board holds driving.scheduler driving.chips host) :
    (Save.enterUntilPoint onFrame budget thread rounds driving).Meets unspoken
      (fun result later => Kept kinds board holds result.2.scheduler result.2.chips later) host := by
  induction rounds generalizing driving host with
  | zero => exact .throw trivial
  | succ rounds ih =>
    rw [Save.enterUntilPoint]
    apply (upheld.enter wraps few budget kept).bind
    intro result told left
    obtain ⟨later, moved⟩ := result
    simp only
    split
    next frame =>
      apply (Save.count_meets trivial driving.report.frames told).bind
      rintro frames _ ⟨_, rfl⟩
      exact (upheld.completeFrame left frame).bind fun _ _ kept => ih kept
    next other =>
      have kept : Kept kinds board holds later moved told := ⟨left.1, (if_neg other).mp left.2⟩
      split
      next => exact .pure kept
      next =>
        apply (Save.count_meets trivial driving.report.desyncs told).bind
        rintro desyncs _ ⟨_, rfl⟩
        exact .pure kept

theorem lasting (budget : Nat) : Save.Lasting unspoken onFrame budget
    fun driving host => Kept kinds board holds driving.scheduler driving.chips host where
  lenient _ _ := trivial
  drive thread driving host kept := by
    simp only [Save.drive]
    cases set : driving.scheduler.setActive thread with
    | error => exact .throw trivial
    | ok scheduler =>
      simp only [Run.ofExcept_ok, pure_bind]
      exact upheld.enterUntilPoint wraps few budget thread budget (kept.active set)
  passes _ kept := kept
  notice _ kept := upheld.kept_hears kept _

theorem runToSave (budget : Nat) (method : SaveMethod) {scheduler : Scheduler} {chips : σ} {host : ω}
    (kept : Kept kinds board holds scheduler chips host) :
    (Save.runToSave onFrame budget method scheduler chips).Meets unspoken
      (fun last later => Kept kinds board holds last.scheduler last.chips later) host := by
  cases outside : scheduler.entered with
  | true =>
    rw [Save.runToSave, Scheduler.setMode, if_pos (by exact outside)]
    exact .throw trivial
  | false =>
    rw [Save.runToSave_eq outside]
    have steered : Kept kinds board holds (Save.steered scheduler) chips host :=
      ⟨kept.1.withScheduler rfl kept.1.free, kept.2⟩
    exact ((upheld.lasting wraps few budget).settleAll method steered).bind fun driving host kept => upheld.handBack kept

/-- Whatever is asked of a machine, if it answers then what is upheld holds. -/
theorem answerAll (budget : Nat) (method : SaveMethod) (requests : List Request) {scheduler : Scheduler} {chips : σ} {host : ω}
    (kept : Kept kinds board holds scheduler chips host) :
    (Scheduler.answerAll onFrame method budget requests (scheduler, chips)).Meets unspoken
      (fun result later => Kept kinds board holds result.1 result.2 later) host := by
  induction requests generalizing scheduler chips host with
  | nil => exact .pure kept
  | cons request rest ih =>
    rw [Scheduler.answerAll]
    cases request with
    | run =>
      rw [Scheduler.answer]
      exact (upheld.runToFrame wraps few budget budget kept).bind fun _ _ kept => ih kept
    | save =>
      rw [Scheduler.answer, bind_assoc]
      apply (upheld.runToSave wraps few budget method kept).bind
      intro driving told kept
      exact ih kept

end
end Upheld

/-- What a host remembers of the frames that it was handed. Notices do not matter to that. -/
structure Logs [Host ω] (log : ω → List (Framebuffer × Array Int16)) : Prop where
  notice : ∀ notice host, log (Host.notice notice host) = log host
  frame : ∀ picture samples host, log (Host.frame picture samples host) = log host ++ [(picture, samples)]

/-- Whoever remembers frames remembers those of the chronicle. -/
theorem Logs.upheld [Host ω] {log : ω → List (Framebuffer × Array Int16)} (logs : Logs log) (kinds : List CoprocessorKind)
    (cheats : List Cheat) (before : List (Framebuffer × Array Int16)) :
    Upheld kinds Chronicle.board (Chronicle.completeFrame cheats) (fun _ chronicle host => log host = before ++ framesOf chronicle.entries)
      (fun _ chronicle host => log host = before ++ framesOf chronicle.entries) where
  slice := by
    intro scheduler chronicle host _ _ told action later moved middle notices sliced
    have told : log host = before ++ framesOf moved.entries := by
      rw [Chronicle.entries_of_slice sliced.sliced]
      simpa using told
    split <;> exact told
  frame := by
    intro scheduler chronicle host _ told
    change log (Host.frame chronicle.board.ppu.picture chronicle.board.smp.samples host) =
      before ++ framesOf (chronicle.entries ++ [.frame chronicle.board _])
    rw [logs.frame, told]
    simp
  hears times chronicle host notice told := (logs.notice notice host).trans told
  hears_due times chronicle host notice told := (logs.notice notice host).trans told
  board := ⟨cheats, fun _ _ => rfl⟩

namespace Console

variable [Host ω] {budget : Nat} {requests : List Request} {console last : Console} {entries : List Entry} {host heard : ω}

/-- What is upheld from the first entry of a chronicle on holds at its end. -/
theorem upheld_of_chronicle {holds due : (ThreadId → Int) → Chronicle → ω → Prop}
    (upheld : Upheld kinds Chronicle.board (Chronicle.completeFrame console.cheats) holds due)
    (few : kinds.length ≤ Cartridge.maxCoprocessors) (sound : console.machine.Sound .own kinds)
    (begins : holds console.machine.scheduler.time ⟨console.machine.board, []⟩ host)
    (written : console.chronicle budget requests host = (.ok (last, entries), heard)) :
    last.machine.Sound .own kinds ∧ holds last.machine.scheduler.time ⟨last.machine.board, entries⟩ heard := by
  obtain ⟨result, told, answered, same⟩ := Run.bind_eq_ok written
  obtain ⟨scheduler, chronicle⟩ := result
  cases same
  exact (upheld.answerAll Chronicle.wraps few budget console.method requests ⟨sound, begins⟩).of_ok answered

/-- A host is handed the frames of the chronicle, once each and in their order. -/
theorem log_of_chronicle {log : ω → List (Framebuffer × Array Int16)} (logs : Logs log)
    (few : kinds.length ≤ Cartridge.maxCoprocessors) (sound : console.machine.Sound .own kinds)
    (written : console.chronicle budget requests host = (.ok (last, entries), heard)) :
    log heard = log host ++ framesOf entries :=
  (upheld_of_chronicle (logs.upheld kinds console.cheats (log host)) few sound (List.append_nil _).symm written).2

end Console
end MultiClock
