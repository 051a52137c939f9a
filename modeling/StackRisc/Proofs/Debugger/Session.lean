import StackRisc.Proofs.Debugger.Advance

/-!
# StackRisc.Proofs.Debugger.Session

A session of the debugger as a way to run its machine.  A line does nothing
to the machine, or advances it, and that only while it can run (`moves_hear`).
So whatever lines a session hears, its machine is in a place of the run of
the loaded program, but for the display (`hearAll_follows_run`).
-/

namespace StackRisc.Debugger

variable {interpret : String → Except Event Command} {s s' : Session} {c : Computer} {n : Nat}

/-- The session after some lines.  Once one of them has ended it, it hears no
more. -/
def hearAll (interpret : String → Except Event Command) (s : Session) : List String → Session
  | [] => s
  | line :: rest =>
    let t := s.hear interpret line
    if t.ended then t.session else hearAll interpret t.session rest

/-! ## What a line does to the machine -/

/-- What becomes of the machine of a session: nothing, or it advances, which
it does only while it can run. -/
inductive Moves (s s' : Session) : Prop
  | idle (hcomputer : s'.computer = s.computer) (hhalted : s'.halted = s.halted)
  | advance (hgoing : s.halted = false) {a : Advance}
      (h : ∃ isStop fuel, a = advanceWithin isStop fuel s.computer #[])
      (hcomputer : s'.computer = a.computer.receive.2) (hhalted : s'.halted = a.halted)

namespace Session

/-- What is only shown moves nothing. -/
theorem moves_showing (s : Session) (events : List Event) : Moves s (s.showing events).session :=
  .idle rfl rfl

/-- An address that is not found moves nothing. -/
theorem moves_withAddress (a : Argument) {f : Address → Turn}
    (h : ∀ address, Moves s (f address).session) : Moves s (s.withAddress a f).session := by
  unfold withAddress
  split
  · exact h _
  · exact s.moves_showing _

/-- An advance moves the machine as a run does. -/
theorem moves_moveTo (hgoing : s.halted = false) (isStop : Address → Bool) (fuel : Nat) :
    Moves s (s.moveTo (advanceWithin isStop fuel s.computer #[])).session :=
  .advance hgoing ⟨isStop, fuel, rfl⟩ rfl rfl

/-- Only the commands that ask for it advance the machine. -/
theorem moves_perform (s : Session) (command : Command)
    (h : command.needsMachine = true → s.halted = false) : Moves s (s.perform command).session := by
  cases command with
  | step count => exact moves_moveTo (h rfl) _ count
  | resume => exact moves_moveTo (h rfl) _ _
  | setBreak address => exact moves_withAddress address fun _ => .idle rfl rfl
  | clearBreak address => exact moves_withAddress address fun _ => .idle rfl rfl
  | memory start count => exact moves_withAddress start fun _ => .idle rfl rfl
  | exit | registers | stack | list _ | info _ => exact .idle rfl rfl

/-- Every command moves the machine as a run does, or leaves it. -/
theorem moves_obey (s : Session) (command : Command) : Moves s (s.obey command).session := by
  unfold obey
  split
  · exact s.moves_showing _
  · next h =>
      refine s.moves_perform command fun hneeds => ?_
      simpa [hneeds] using h

/-- So does every line, however it is understood. -/
theorem moves_hear (interpret : String → Except Event Command) (s : Session) (line : String) :
    Moves s (s.hear interpret line).session := by
  unfold hear
  split
  · cases s.last with
    | none => exact s.moves_showing _
    | some command => exact s.moves_obey command
  · cases interpret line with
    | error e => exact s.moves_showing _
    | ok command =>
        -- Remembering the command changes nothing that a move speaks of.
        rcases { s with last := some command }.moves_obey command with
          ⟨hcomputer, hhalted⟩ | ⟨hgoing, hadvance, hcomputer, hhalted⟩
        · exact .idle hcomputer hhalted
        · exact .advance hgoing hadvance hcomputer hhalted

end Session

/-! ## Sessions and runs -/

/-- An advance gets the machine to where it ends. -/
theorem EndsAt.gets {isStop : Address → Bool} {a : Advance} (h : EndsAt isStop c n a)
    (hproceeds : c.Proceeds n) : c.Gets n a.halted a.computer := by
  cases h with
  | halted _ hstop => exact .halted hproceeds hstop
  | paused _ hrun _ => exact .going hproceeds hrun
  | stuck hrun _ hstuck => exact .stuck hproceeds hrun hstuck

/-- An advance leaves its machine in a place of its run. -/
theorem gets_advanceWithin (hrun : c.running = true) (isStop : Address → Bool) (fuel : Nat)
    (log : Array Event) :
    ∃ n, c.Gets n (advanceWithin isStop fuel c log).halted
      (advanceWithin isStop fuel c log).computer := by
  rcases advanceWithin_ends isStop hrun fuel log with
    ⟨n, hleast, hends⟩ | ⟨hgo, hstill, log', hspent⟩
  · have hproceeds : c.Proceeds n :=
      proceeds_of_not_pausesAt hrun fun k hk h => Nat.not_le_of_lt hk (hleast.2 h)
    exact ⟨n, hends.gets hproceeds⟩
  · rw [hspent]
    exact ⟨fuel, .going (proceeds_of_not_pausesAt hrun hgo) hstill⟩

/-- The machine of the session is in a place of the run of `c`, but for the
display, and the session knows whether that run has ended. -/
def Session.Follows (c : Computer) (s : Session) : Prop :=
  ∃ n d, c.Gets n s.halted d ∧ d.SameOffDisplay s.computer

/-- A session starts at its machine. -/
theorem Session.follows_start (hrun : c.running = true) (symbols : Symbols) :
    (Session.start c symbols).Follows c := ⟨0, c, .going c.proceeds_zero hrun, .refl c⟩

/-- A session leaves the files of its machine. -/
theorem Session.Follows.files_eq (h : s.Follows c) : s.computer.files = c.files := by
  obtain ⟨n, d, hgets, hsame⟩ := h
  exact congrArg Prod.snd (hsame.host_eq.symm.trans hgets.host_eq)

/-- A session that moves goes on following the run. -/
theorem Moves.follows (h : Moves s s') (hs : s.Follows c) : s'.Follows c := by
  obtain ⟨n, d, hgets, hsame⟩ := hs
  cases h with
  | idle hcomputer hhalted =>
      refine ⟨n, d, ?_, ?_⟩
      · rwa [hhalted]
      · rwa [hcomputer]
  | advance hgoing hadvance hcomputer hhalted =>
      obtain ⟨isStop, fuel, rfl⟩ := hadvance
      rw [hgoing] at hgets
      have hrun : s.computer.running = true := hsame.running_eq ▸ hgets.running
      obtain ⟨m, hgets'⟩ := gets_advanceWithin hrun isStop fuel #[]
      obtain ⟨d', hgets'', hsame'⟩ := hgets'.offDisplay hsame.symm
      refine ⟨n + m, d', ?_, ?_⟩
      · rw [hhalted]
        exact hgets.trans hgets''
      · rw [hcomputer]
        exact hsame'.symm.trans (Computer.sameOffDisplay_receive _)

/-- A session follows the run from line to line. -/
theorem Session.Follows.hearAll (hs : s.Follows c) (lines : List String) :
    (hearAll interpret s lines).Follows c := by
  induction lines generalizing s with
  | nil => exact hs
  | cons line rest ih =>
      have hnext := (s.moves_hear interpret line).follows hs
      rw [Debugger.hearAll]
      split
      · exact hnext
      · exact ih hnext

/-! ## Sessions whose run has ended -/

/-- A halted session does not move. -/
theorem Moves.of_halted (h : Moves s s') (hs : s.halted = true) :
    s'.computer = s.computer ∧ s'.halted = true := by
  cases h with
  | idle hcomputer hhalted => exact ⟨hcomputer, hhalted.trans hs⟩
  | advance hgoing => exact absurd (hs.symm.trans hgoing) nofun

/-- After the machine has halted, no line changes it. -/
theorem computer_hearAll_of_halted (hs : s.halted = true) (lines : List String) :
    (hearAll interpret s lines).computer = s.computer := by
  induction lines generalizing s with
  | nil => rfl
  | cons line rest ih =>
      obtain ⟨hcomputer, hhalted⟩ := (s.moves_hear interpret line).of_halted hs
      rw [hearAll]
      split
      · exact hcomputer
      · rw [ih hhalted, hcomputer]

theorem computer_hearAll_append (lines more : List String)
    (h : (hearAll interpret s lines).halted = true) :
    (hearAll interpret s (lines ++ more)).computer = (hearAll interpret s lines).computer := by
  induction lines generalizing s with
  | nil => exact computer_hearAll_of_halted h more
  | cons line rest ih =>
      rw [List.cons_append, hearAll, hearAll]
      rw [hearAll] at h
      split
      · rfl
      · next hgoing =>
          rw [if_neg hgoing] at h
          exact ih h

/-! ## Loaded programs -/

/-- Whatever lines a session on a loaded program hears, and whatever they
mean, its machine is the one after some steps that succeeded, or after one
more that faulted, but for the display and a blit that is pending.  The steps
that succeeded are the cycles counted, and no more than the limit.  Once the
machine cannot run any more, no line changes it. -/
theorem hearAll_follows_run {config : Config} {image : List Byte} {loaded : Computer}
    (hload : Computer.load config image = .ok loaded) (link : Option DisplayLink)
    (symbols : Symbols) (interpret : String → Except Event Command) (lines : List String) :
    let c := { loaded with link }
    let s := hearAll interpret (.start c symbols) lines
    (∃ n, c.Proceeds n ∧
      (s.computer.SameOffDisplay (c.after n) ∨
        (∃ fault, (c.after n).running = true ∧ (c.after n).cycleLimit? = none ∧
          (c.after n).step.result = .error fault) ∧
        s.computer.SameOffDisplay (c.after (n + 1))) ∧
      s.computer.cycles = n ∧
      ∀ limit, config.maxCycles = some limit → n ≤ limit) ∧
    (s.halted = true → ∀ more,
      (hearAll interpret (.start c symbols) (lines ++ more)).computer = s.computer) := by
  intro c s
  have hstart : c.running = true ∧ c.cycles = 0 ∧ c.maxCycles = config.maxCycles := by
    rw [Computer.load] at hload
    split at hload
    · contradiction
    · obtain rfl := Except.ok.inj hload
      exact ⟨rfl, rfl, rfl⟩
  obtain ⟨hrun, hcycles, hlimit⟩ := hstart
  obtain ⟨n, d, hgets, hsame⟩ : s.Follows c := (Session.follows_start hrun symbols).hearAll lines
  refine ⟨⟨n, hgets.proceeds, ?_, ?_, fun limit h => ?_⟩,
    fun hended more => computer_hearAll_append lines more hended⟩
  · rcases hgets.eq_after with rfl | ⟨hfails, rfl⟩
    · exact .inl hsame.symm
    · exact .inr ⟨hfails, hsame.symm⟩
  · rw [← hsame.cycles_eq, hgets.cycles, hcycles, Nat.zero_add]
  · have hle := hgets.proceeds.le_limit (hlimit.trans h)
    omega

/-- A program that halts with the only cycle it is allowed, continued twice. -/
theorem hearAll_follows_run_hlt :
    ∃ loaded, Computer.load { maxCycles := some 1, files := .empty } [0x0b] = .ok loaded ∧
      let c := { loaded with link := some {} }
      let s := hearAll (fun _ => .ok .resume) (.start c {}) ["continue", ""]
      (∃ n, c.Proceeds n ∧ s.computer.cycles = n ∧ n ≤ 1) ∧
      (s.halted = true → ∀ more,
        (hearAll (fun _ => .ok .resume) (.start c {}) (["continue", ""] ++ more)).computer =
          s.computer) := by
  obtain ⟨loaded, hload⟩ : ∃ loaded,
    Computer.load { maxCycles := some 1, files := .empty } [0x0b] = .ok loaded := ⟨_, rfl⟩
  obtain ⟨⟨n, hproceeds, -, hcycles, hle⟩, hstays⟩ :=
    hearAll_follows_run hload (some {}) {} (fun _ => .ok .resume) ["continue", ""]
  exact ⟨loaded, hload, ⟨n, hproceeds, hcycles, hle 1 rfl⟩, hstays⟩

end StackRisc.Debugger
