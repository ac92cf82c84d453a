import MultiClock.Proofs.HostIndependence
import MultiClock.Proofs.Supplies

/-! Runs of the command line that are split in two. The first run ends with an instant snapshot, and the second goes on from there. -/

namespace MultiClock.CommandLine

open Console

/-- A recorder that listens by itself. -/
instance : Host Recorder where
  notice _ recorder := recorder
  frame := Platform.frame

theorem platform_notice (notice : Notice) (listener : Listener) : (Host.notice notice listener).platform = listener.platform := by
  cases notice <;> rfl

theorem platform_notices (notices : List Notice) (listener : Listener) :
    (notices.foldr Host.notice listener).platform = listener.platform := by
  induction notices with
  | nil => rfl
  | cons notice rest ih => exact (platform_notice notice _).trans ih

/-- What a listener records does not depend on its log and its debugger. -/
theorem recorder_tuned : Tuned fun (listener : Listener) recorder => listener.platform = recorder where
  notice notice host other same := (platform_notice notice host).trans same
  frame picture samples host other same := by
    subst same
    rfl

/-- What was recorded before does not matter. -/
theorem recording_tuned (earlier : Array Int16) :
    Tuned fun (one other : Recorder) => other.samples = earlier ++ one.samples where
  notice _ _ _ same := same
  frame picture samples one other same := by
    change other.samples ++ samples = earlier ++ (one.samples ++ samples)
    rw [same, Array.append_assoc]

/-- A listener that has recorded nothing yet records what a recorder does. -/
theorem runFrames_listener {budget count : Nat} {console last : Console} {recorded : Recorder}
    (ran : runFrames budget count console ⟨#[]⟩ = (.ok last, recorded)) {host : Listener} (empty : host.platform = ⟨#[]⟩) :
    ∃ heard, runFrames budget count console host = (.ok last, heard) ∧ heard.platform = recorded := by
  obtain ⟨same, hears⟩ := Run.Parallel.runFrames recorder_tuned budget count console _ _ empty
  rw [ran] at same hears
  exact ⟨_, Prod.ext same.symm rfl, hears⟩

/-- A run reports the frame that it has come to and as many samples as were recorded, and leaves an instant snapshot. -/
theorem Setting.Supplied.reports {δ : Type} {files : Files (StateM δ)} {disk : δ} {setting : Setting} {configuration : Configuration}
    {cartridge : Cartridge} {path : String} (supplied : setting.Supplied files disk configuration cartridge path)
    (unseeded : configuration.entropy ≠ .high) {cheats : List Cheat} (parsed : setting.cheats.map Cheat.parse = cheats.map Except.ok)
    {load : Option String} {began last : Console} {seed : UInt64}
    (loads : ∀ host, ∃ notices : List Notice, Returns (loadSnapshot files seed (switchedOn configuration cartridge cheats) load) host disk
      began (notices.foldr Host.notice host) disk)
    {budget frames : Nat} {recorded : Recorder} (ran : runFrames budget frames began ⟨#[]⟩ = (.ok last, recorded))
    {data : Array UInt8} (written : last.writeSnapshot false (setting.description.getD "") = (data, last)) (log : Log) :
    ∃ heard later, Returns (run files seed budget (setting.arguments load frames path)) (listener log) disk
        ⟨last.machine.board.frame, recorded.samples.size, []⟩ heard later ∧
      files.write path data disk = (true, later) ∧ files.read path later = (.file data, later) := by
  obtain ⟨later, writes, reads⟩ := supplied.kept data
  have valid := cartridge_valid (supplied.cartridge (listener log))
  obtain ⟨announced, switches⟩ := Returns.switchOn unseeded valid seed (listener log) disk
  obtain ⟨notices, loaded⟩ := loads (announced.foldr Host.notice (listener log))
  have empty : (notices.foldr Host.notice (announced.foldr Host.notice (listener log))).platform = ⟨#[]⟩ := by
    rw [platform_notices, platform_notices]
    rfl
  obtain ⟨told, runs, records⟩ := runFrames_listener ran empty
  have saved : Returns (saveSnapshot files budget (setting.arguments load frames path) last (some path)) told disk last _ later :=
    .saveSnapshot (BetweenFrames.saves written budget told) writes
  refine ⟨Host.notice (.wrote data.size path) (Host.notice (.saved false last.machine.board.frame data.size) told), later, ?_,
    writes, reads⟩
  rw [run]
  apply (supplied.configuration _).bind
  apply (supplied.cartridge _).bind
  apply switches.bind
  apply (Returns.pure _).bind
  apply (Returns.addCheats_switchedOn parsed configuration cartridge).bind
  apply loaded.bind
  apply (Returns.simulate runs).bind
  apply saved.bind
  -- neither sound nor pictures nor activities were asked for
  apply (Returns.pure ()).bind
  apply (Returns.pure ()).bind
  apply (Returns.pure []).bind
  apply Returns.get.bind
  rw [platform_notice, platform_notice, records]
  exact Returns.pure _

/-- Frames that are run in two parts are those that are run in one, and so is their sound. -/
theorem runFrames_joined {budget first second : Nat} {console paused last : Console} {recorded resumed : Recorder}
    (ran : runFrames budget first console ⟨#[]⟩ = (.ok paused, recorded))
    (resumes : runFrames budget second paused ⟨#[]⟩ = (.ok last, resumed)) :
    runFrames budget (first + second) console (⟨#[]⟩ : Recorder) = (.ok last, ⟨recorded.samples ++ resumed.samples⟩) := by
  have quiet : recorded.samples = recorded.samples ++ (⟨#[]⟩ : Recorder).samples := Array.append_empty.symm
  obtain ⟨same, sounds⟩ := Run.Parallel.runFrames (recording_tuned recorded.samples) budget second paused _ _ quiet
  rw [resumes] at same sounds
  rw [runFrames_add, Run.bind_apply, ran]
  exact Prod.ext same (congrArg Recorder.mk sounds)

/-- A run that is split in two comes to what it comes to in one go: the second half, which goes on from the instant snapshot of
the first, leaves the same bytes and reports the same frames, and both halves together record as many samples. -/
theorem split_runs {δ : Type} {files : Files (StateM δ)} {disk whole : δ} {setting : Setting} {configuration : Configuration}
    {cartridge : Cartridge} {first second single : String} (unseeded : configuration.entropy ≠ .high) {cheats : List Cheat}
    (parsed : setting.cheats.map Cheat.parse = cheats.map Except.ok)
    (begins : setting.Supplied files disk configuration cartridge first)
    (goes_on : ∀ data middle, files.write first data disk = (true, middle) →
      setting.Supplied files middle configuration cartridge second)
    (together : setting.Supplied files whole configuration cartridge single)
    {budget : Nat} (enough : Machine.ample 0 < budget) (n m : Nat) (seed rest other : UInt64) (log next once : Log) :
    ∃ report continued complete heard told listened middle last final data,
      Returns (run files seed budget (setting.arguments none n first)) (listener log) disk report heard middle ∧
      Returns (run files rest budget (setting.arguments (some first) m second)) (listener next) middle continued told last ∧
      Returns (run files other budget (setting.arguments none (n + m) single)) (listener once) whole complete listened final ∧
      files.read second last = (.file data, last) ∧ files.read single final = (.file data, final) ∧
      continued.frames = complete.frames ∧ report.audioSamples + continued.audioSamples = complete.audioSamples := by
  obtain ⟨started, started_eq⟩ : ∃ started, switchedOn configuration cartridge cheats = started := ⟨_, rfl⟩
  have starts : started.BetweenFrames cartridge.coprocessors := started_eq ▸ .switchedOn (cartridge_valid (begins.cartridge (listener log))) cheats
  have fresh : ∀ (disk : δ) (seed : UInt64) (host : Listener), ∃ notices : List Notice,
      Returns (loadSnapshot files seed (switchedOn configuration cartridge cheats) none) host disk started
        (notices.foldr Host.notice host) disk := by
    intro disk seed host
    rw [started_eq]
    exact ⟨[], Returns.pure started⟩
  obtain ⟨machine, recorded, ran, between⟩ := starts.runFrames_returns enough n (⟨#[]⟩ : Recorder)
  obtain ⟨paused, paused_eq⟩ : ∃ paused, { started with machine } = paused := ⟨_, rfl⟩
  rw [paused_eq] at ran between
  obtain ⟨snapshot, written⟩ := between.writes (setting.description.getD "")
  obtain ⟨heard, middle, returns, stored, reads⟩ := begins.reports unseeded parsed (fresh disk seed) ran written log
  obtain ⟨machine, resumed, resumes, ends⟩ := between.runFrames_returns enough m (⟨#[]⟩ : Recorder)
  generalize { paused with machine } = stopped at resumes ends
  obtain ⟨data, kept⟩ := ends.writes (setting.description.getD "")
  have restores : ∀ host : Listener, ∃ notices : List Notice,
      Returns (loadSnapshot files rest (switchedOn configuration cartridge cheats) (some first)) host middle paused
        (notices.foldr Host.notice host) middle := by
    intro host
    obtain ⟨notices, loads⟩ := between.restores starts written rest host
    have copy : { started with machine := paused.machine } = paused := by rw [← paused_eq]
    rw [copy] at loads
    rw [started_eq]
    exact ⟨notices, .loadSnapshot reads loads⟩
  obtain ⟨told, last, continues, _, result⟩ := (goes_on snapshot middle stored).reports unseeded parsed restores resumes kept next
  obtain ⟨listened, final, completes, _, same⟩ :=
    together.reports unseeded parsed (fresh whole other) (runFrames_joined ran resumes) kept once
  exact ⟨_, _, _, heard, told, listened, middle, last, final, data, returns, continues, completes, result, same, rfl,
    Array.size_append.symm⟩

/-- A disk with a configuration and a cartridge. -/
def workshop : Disk where
  root := "/"
  files := [
    ("conf", .bytes "\x7b\"entropy\": \"None\"\x7d".toByteArray.data),
    ("g", .bytes "\x7b\"coprocessors\": [\"Multiplier\"]\x7d".toByteArray.data),
    ("g.bin", .bytes #[1, 2, 3])]

theorem workshop_names : Disk.nameOf "/" "conf" = some "conf" ∧ Disk.nameOf "/" "g" = some "g" ∧
    Disk.nameOf "/" (Path.withExtension "bin" "g") = some "g.bin" := by
  refine ⟨by cbv, by cbv, by cbv⟩

theorem workshop_stocked : workshop.Stocked "conf" "g" ⟨.fast, .none, []⟩ ⟨"", [.multiplier], #[1, 2, 3]⟩ := by
  obtain ⟨conf, game, program⟩ := workshop_names
  have configured : Configuration.ofJson "\x7b\"entropy\": \"None\"\x7d" = .ok ⟨.fast, .none, []⟩ := by cbv
  have described : Cartridge.ofJson "\x7b\"coprocessors\": [\"Multiplier\"]\x7d" = .ok ⟨"", [.multiplier], #[]⟩ := by cbv
  exact ⟨⟨_, Disk.look_eq conf rfl, configured⟩, ⟨_, _, #[1, 2, 3], Disk.look_eq game rfl, described, Disk.look_eq program rfl, rfl⟩⟩

/-- Two runs of one frame each, and one run of two frames that starts with the same disk. -/
theorem split_runs_in_workshop :
    let setting : Setting := ⟨some "g", some "conf", none, ["0010=2A"]⟩
    Machine.ample 0 < Scheduler.ampleBudget ∧ ∃ report continued complete heard told listened middle last final data,
      Returns (run Disk.access 1 Scheduler.ampleBudget (setting.arguments none 1 "half")) (listener .silent) workshop report heard middle ∧
      Returns (run Disk.access 2 Scheduler.ampleBudget (setting.arguments (some "half") 1 "all")) (listener .silent) middle continued
        told last ∧
      Returns (run Disk.access 3 Scheduler.ampleBudget (setting.arguments none 2 "all")) (listener .silent) workshop complete
        listened final ∧
      Disk.access.read "all" last = (.file data, last) ∧ Disk.access.read "all" final = (.file data, final) ∧
      continued.frames = complete.frames ∧ report.audioSamples + continued.audioSamples = complete.audioSamples := by
  intro setting
  have half : Disk.nameOf "/" "half" = some "half" := by cbv
  have all : Disk.nameOf "/" "all" = some "all" := by cbv
  have apart : ∀ input ∈ ["conf", "g", Path.withExtension "bin" "g"], Disk.nameOf "/" input ≠ Disk.nameOf "/" "half" := by
    obtain ⟨conf, game, program⟩ := workshop_names
    simp [conf, game, program, half]
  have goes_on : ∀ data middle, Disk.access.write "half" data workshop = (true, middle) →
      setting.Supplied Disk.access middle ⟨.fast, .none, []⟩ ⟨"", [.multiplier], #[1, 2, 3]⟩ "all" := by
    intro data middle written
    have stored := Disk.put_of_write written
    have root : middle.root = "/" := (Disk.put_look stored).1
    exact (workshop_stocked.put stored apart).supplied (root ▸ all) none ["0010=2A"]
  have cheats : setting.cheats.map Cheat.parse = [⟨0x10, none, 0x2A⟩].map Except.ok := rfl
  exact ⟨by decide, split_runs (by decide) cheats (workshop_stocked.supplied half none ["0010=2A"]) goes_on
    (workshop_stocked.supplied all none ["0010=2A"]) (by decide) 1 1 1 2 3 .silent .silent .silent⟩

end MultiClock.CommandLine
