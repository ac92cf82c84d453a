import MultiClock.Proofs.PortOrder

/-! How early the reference may see what a coprocessor writes. A coprocessor finishes its unit of work before it compares
clocks, so its output may already hold what it writes up to one unit of work later, and never more than that. -/

namespace MultiClock

variable {kinds : List CoprocessorKind}

theorem Scheduler.coprocessor_rate {scheduler : Scheduler} (wired : scheduler.shape = wiring kinds) {index : UInt8} {kind : CoprocessorKind} (listed : kinds[index.toNat]? = some kind) :
    scheduler.rate (.coprocessor index) = (Coprocessor.create kind index).frequency.toNat := by
  refine rate_of_placed wired ?_
  simp only [ThreadId.index, wiring, Nat.add_comm 3, List.getElem?_cons_succ, List.getElem?_mapIdx, listed, Option.map_some,
    UInt8.ofNat_toNat]

theorem CoprocessorKind.pace_prompt (kind : CoprocessorKind) : kind.pace.patience = -1 := by
  cases kind <;> rfl

/-- What the reference reads from a coprocessor is no older than the reference's own time, and it was written less than the
coprocessor's longest unit of work after it. -/
theorem Timely.results (few : kinds.length ≤ Cartridge.maxCoprocessors) {earlier : List Moment} {moment : Moment}
    (timely : Timely kinds earlier moment) {operand index : UInt8} (reads : moment.ReferenceExecutes .copRead operand)
    (selected : moment.before.board.cpu.selected operand = some index) : ∃ kind, kinds[index.toNat]? = some kind ∧
      0 ≤ moment.before.scheduler.time (.coprocessor index) ∧
      ∀ first slice rest, earlier = first ++ slice :: rest → slice.before.scheduler.active = .coprocessor index →
        elapsed (.coprocessor index) (first ++ [slice]) * Clock.cpuFrequency.toNat <
          elapsed .cpu earlier * (Coprocessor.create kind index).frequency.toNat + kind.pace.longest * Clock.cpuFrequency.toNat := by
  have accessed : moment.before.board.cpu.accessed .copRead operand = some (.coprocessor index) := by
    simp [Cpu.accessed, selected]
  obtain ⟨dependent, present⟩ := Cpu.index_of_dependent (Cpu.accessed_mem accessed)
  rw [Machine.count_of_fits few timely.running.sound] at present
  have inside : index.toNat < kinds.length := by
    simp only [ThreadId.index] at present
    omega
  obtain ⟨kind, listed⟩ : ∃ kind, kinds[index.toNat]? = some kind := ⟨_, List.getElem?_eq_getElem inside⟩
  refine ⟨kind, listed, timely.level .copRead operand _ reads accessed, fun first slice rest split _ => ?_⟩
  have clock := timely.clock (.coprocessor index) dependent
  have ahead := timely.running.pacing.ahead (.coprocessor index) dependent present
  have pace : paceOf kinds (.coprocessor index) = kind.pace := by simp [paceOf, listed]
  have spent : (0 : Int) ≤ (moment.before.board.workload (.coprocessor index)).units * second :=
    Int.mul_nonneg (Int.natCast_nonneg _) (Int.natCast_nonneg _)
  rw [Scheduler.coprocessor_rate timely.running.sound.wired listed] at clock
  rw [pace, kind.pace_prompt, Workload.Pace.reach] at ahead
  have fewer : elapsed (.coprocessor index) (first ++ [slice]) ≤ elapsed (.coprocessor index) earlier := by
    have more := elapsed_append (.coprocessor index) (first ++ [slice]) rest
    rw [split.trans (List.append_cons first slice rest), more]
    exact Nat.le_add_right _ _
  have scaled := Nat.mul_le_mul_right Clock.cpuFrequency.toNat fewer
  refine Nat.lt_of_le_of_lt scaled ?_
  zify
  simp only [show ((Clock.cpuFrequency.toNat : Nat) : Int) = second from rfl]
  push_cast at *
  linarith

namespace Console

/-- Whatever the cartridge and the memories hold, and for as long as a console is run: whenever the reference reads from a
coprocessor, that coprocessor is not behind, and nothing it has done so far is a whole unit of its work ahead. -/
theorem results_hardly_early [Host ω] {configuration : Configuration} {cartridge : Cartridge} {seed : UInt64} {host : ω}
    {console : Console} (built : (Console.new configuration cartridge seed host).1 = .ok console) (wram : Vector UInt8 0x2000)
    (ram : Vector UInt8 0x1000) (cheats : List Cheat) :
    ∃ enough, ∀ budget, enough ≤ budget → ∀ (count : Nat) (υ : Type) [Host υ] (listener : υ), ∃ last history heard,
      (console.holding wram ram cheats).watch budget (List.replicate count .run) listener = (.ok (last, history), heard) ∧
      runFrames budget count (console.holding wram ram cheats) listener = (.ok last, heard) ∧
      Always (fun earlier moment => ∀ operand index, moment.ReferenceExecutes .copRead operand →
        moment.before.board.cpu.selected operand = some index → ∃ kind, cartridge.coprocessors[index.toNat]? = some kind ∧
          0 ≤ moment.before.scheduler.time (.coprocessor index) ∧
          ∀ first slice rest, earlier = first ++ slice :: rest → slice.before.scheduler.active = .coprocessor index →
            elapsed (.coprocessor index) (first ++ [slice]) * Clock.cpuFrequency.toNat <
              elapsed .cpu earlier * (Coprocessor.create kind index).frequency.toNat +
                kind.pace.longest * Clock.cpuFrequency.toNat) history := by
  refine ⟨Machine.ample 0 + 1, fun budget enough count υ _ listener => ?_⟩
  obtain ⟨last, history, heard, watched, always⟩ := watch_runs built wram ram cheats enough count listener
  refine ⟨last, history, heard, watched, ?_, ?_⟩
  · rw [← operate_runs]
    exact operate_of_watch watched
  · intro earlier moment later split operand index reads selected
    exact (always earlier moment later split).results (new_eq_ok built).1 reads selected

theorem results_hardly_early_switched_on : ∃ enough last history heard,
    (sample.holding (Vector.replicate 0x2000 5) (Vector.replicate 0x1000 1) []).watch enough [.run] () = (.ok (last, history), heard) ∧
      Always (fun _ moment => ∀ operand index, moment.ReferenceExecutes .copRead operand →
        moment.before.board.cpu.selected operand = some index → 0 ≤ moment.before.scheduler.time (.coprocessor index)) history := by
  have built : (Console.new Configuration.standard sample.cartridge 0 ()).1 = .ok sample := new_eq rfl Configuration.standard 0 ()
  obtain ⟨enough, early⟩ := results_hardly_early built (Vector.replicate 0x2000 5) (Vector.replicate 0x1000 1) []
  obtain ⟨last, history, heard, watched, _, held⟩ := early enough (Nat.le_refl _) 1 Unit ()
  refine ⟨enough, last, history, heard, watched, fun earlier moment later split operand index reads selected => ?_⟩
  obtain ⟨_, _, level, _⟩ := held earlier moment later split operand index reads selected
  exact level

end Console
end MultiClock
