import MultiClock.CommandLine.Run
import MultiClock.Proofs.FrameBoundaries

/-! Runs of the command line, one part after the other: what each part comes to if it is asked for something valid and its files
are there. -/

namespace MultiClock.CommandLine

variable {δ : Type} {files : Files (StateM δ)} {host heard told : Listener} {disk later last : δ}

/-- A part of a run ends well, with a value, with what was heard by then and with these files. -/
def Returns (action : Session (StateM δ) α) (host : Listener) (disk : δ) (value : α) (heard : Listener) (later : δ) : Prop :=
  action host disk = ((.ok value, heard), later)

namespace Returns

theorem pure (value : α) : Returns (pure value : Session (StateM δ) α) host disk value host disk := rfl

theorem bind {action : Session (StateM δ) α} {next : α → Session (StateM δ) β} {value : α} {result : β}
    (first : Returns action host disk value heard later) (rest : Returns (next value) heard later result told last) :
    Returns (action >>= next) host disk result told last := by
  rw [Returns] at first rest ⊢
  simp only [Bind.bind, ExceptT.bind, ExceptT.mk, StateT.bind]
  rw [first]
  exact rest

theorem get : Returns (get : Session (StateM δ) Listener) host disk host host disk := rfl

/-- Files are used without the listener. -/
theorem access {action : StateM δ α} {value : α} (done : action disk = (value, later)) :
    Returns (liftM action : Session (StateM δ) α) host disk value host later := by
  change ((Except.ok (action disk).1, host), (action disk).2) = _
  rw [done]

/-- And simulated without the files. -/
theorem simulate {run : MultiClock.Run Listener α} {value : α} (ran : run host = (.ok value, heard)) :
    Returns (simulate run : Session (StateM δ) α) host disk value heard disk := by
  apply get.bind
  rw [show run.run host = (.ok value, heard) from ran]
  exact rfl

theorem addCheats {texts : List String} {cheats : List Cheat} (parsed : texts.map Cheat.parse = cheats.map Except.ok)
    (console : Console) :
    Returns (addCheats console texts) host disk { console with cheats := console.cheats ++ cheats } host disk := by
  induction texts generalizing console cheats with
  | nil =>
    obtain rfl := List.map_eq_nil_iff.mp parsed.symm
    simp only [CommandLine.addCheats, List.append_nil]
    exact pure _
  | cons text rest ih =>
    cases cheats with
    | nil => cases parsed
    | cons cheat cheats =>
      obtain ⟨valid, parsed⟩ := List.cons.inj parsed
      rw [CommandLine.addCheats, valid]
      apply (pure cheat).bind
      have added := ih parsed (console.addCheat cheat)
      rwa [Console.addCheat, List.append_assoc] at added

/-- Nothing but notices is heard while the machine is switched on. -/
theorem switchOn {configuration : Configuration} {cartridge : Cartridge} (unseeded : configuration.entropy ≠ .high)
    (valid : cartridge.validate = .ok ()) (seed : UInt64) (host : Listener) (disk : δ) : ∃ notices : List Notice,
    Returns (CommandLine.simulate (liftM (Console.new configuration cartridge seed : StateM Listener _))) host disk
      (.ok (Console.switchedOn configuration cartridge [])) (notices.foldr Host.notice host) disk := by
  obtain ⟨notices, heard⟩ := Console.new_quiet configuration cartridge seed host
  refine ⟨notices, simulate ?_⟩
  rw [Run.lift_apply, Console.new_switchedOn unseeded valid seed host, heard]

theorem addCheats_switchedOn {texts : List String} {cheats : List Cheat} (parsed : texts.map Cheat.parse = cheats.map Except.ok)
    (configuration : Configuration) (cartridge : Cartridge) :
    Returns (CommandLine.addCheats (Console.switchedOn configuration cartridge []) texts) host disk
      (Console.switchedOn configuration cartridge cheats) host disk := by
  have added : Returns _ host disk _ host disk := addCheats parsed (Console.switchedOn configuration cartridge [])
  rwa [Console.switchedOn_cheats] at added

theorem loadSnapshot {path : String} {data : Array UInt8} {console began : Console} {seed : UInt64}
    (found : files.read path disk = (.file data, disk)) (loads : console.load seed data host = (.ok (.ok (), began), heard)) :
    Returns (loadSnapshot files seed console (some path)) host disk began heard disk := by
  apply (access found).bind
  apply (simulate loads).bind
  exact pure began

theorem saveSnapshot {path : String} {data : Array UInt8} {console saved : Console} {budget : Nat} {arguments : Arguments}
    (saves : console.save budget (!arguments.instant) (arguments.description.getD "") host = (.ok (data, saved), heard))
    (writes : files.write path data disk = (true, later)) :
    Returns (saveSnapshot files budget arguments console (some path)) host disk saved
      (Host.notice (.wrote data.size path) heard) later := by
  apply (simulate saves).bind
  apply (access writes).bind
  exact rfl

end Returns

end MultiClock.CommandLine
