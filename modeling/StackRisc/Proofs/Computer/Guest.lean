import StackRisc.Proofs.Computer.Execution

/-!
# StackRisc.Proofs.Computer.Guest

What a program can do to its machine.  Whatever the instruction, and whatever
service it calls, it is put together from writes to memory and from actions
that touch neither memory nor the host, and do not see the surroundings of the
machine: the cycles that were counted and those that are allowed, the display,
and whether an earlier blit is still pending.  This is `Action.Guest`;
`Action.guest_execute` walks through the instructions once, and what every
program keeps is proved by induction on it.
-/

namespace StackRisc

/-! ## Surroundings -/

/-- What a program does not see of its machine. -/
structure Surroundings where
  cycles : Nat
  maxCycles : Option Nat
  link : Option DisplayLink
  /-- Whether a blit is pending, requested by the program or not. -/
  pending : Bool
  deriving Inhabited

/-- The machine in other surroundings.  A blit that it has pending stays so. -/
def Computer.within (c : Computer) (s : Surroundings) : Computer :=
  { c with
    cycles := s.cycles
    maxCycles := s.maxCycles
    link := s.link
    display := { c.display with blitRequested := c.display.blitRequested || s.pending } }

/-- What the host provides to a program. -/
def Computer.host (c : Computer) : SyscallTable × FileSystem := (c.syscalls, c.files)

namespace Action

variable {α β : Type}

/-! ## The actions of programs -/

/-- What a program does: it writes to memory, and between two writes it
changes the rest of its machine, whatever the surroundings are. -/
inductive Guest : {α : Type} → Action α → Prop
  | plain {α : Type} {x : Action α}
      (h : ∀ s c, (x.run c).computer.memory = c.memory ∧ (x.run c).computer.host = c.host ∧
        (x.run (c.within s)).result = (x.run c).result ∧
        (x.run (c.within s)).computer = (x.run c).computer.within s) : Guest x
  | store (width : Width) (address : Address) (v : Word) : Guest (store width address v)
  | bind {α β : Type} {x : Action α} {f : α → Action β} (hx : Guest x) (hf : ∀ a, Guest (f a)) :
      Guest (x >>= f)
  /-- Of the machine it looks only at what all surroundings leave as it is. -/
  | look {β : Type} {g : Computer → Action β} (hsame : ∀ s c, g (c.within s) = g c)
      (hg : ∀ c, Guest (g c)) : Guest (get >>= g)

/-! ## Services -/

/-- Reading characters is something that a program does. -/
theorem guest_readChars (count : Nat) (address : Address) : Guest (readChars count address) := by
  induction count generalizing address with
  | zero => exact .plain fun _ _ => ⟨rfl, rfl, rfl, rfl⟩
  | succ count ih =>
      exact .bind (.plain fun _ _ => ⟨rfl, rfl, rfl, rfl⟩) fun _ =>
        .bind (ih (address + 1)) fun _ => .plain fun _ _ => ⟨rfl, rfl, rfl, rfl⟩

theorem guest_readText (address : Address) : Guest (readText address) :=
  .bind (.plain fun _ _ => ⟨rfl, rfl, rfl, rfl⟩) fun _ =>
    .bind (guest_readChars _ _) fun _ => .plain fun _ _ => ⟨rfl, rfl, rfl, rfl⟩

theorem guest_readFile (path : String) : Guest (readFile path) := by
  refine .look (fun _ _ => rfl) fun c => ?_
  cases c.files.read path <;> exact .plain fun _ _ => ⟨rfl, rfl, rfl, rfl⟩

/-- Copying a part of a file is something that a program does. -/
theorem guest_copyChunk (path : String) (contents : List Byte) (count : Nat)
    (address : Address) : Guest (copyChunk path contents count address) := by
  induction contents generalizing count address with
  | nil => cases count <;> exact .plain fun _ _ => ⟨rfl, rfl, rfl, rfl⟩
  | cons b rest ih =>
      cases count with
      | zero => exact .plain fun _ _ => ⟨rfl, rfl, rfl, rfl⟩
      | succ count =>
          rw [copyChunk, write8_eq_store]
          exact .bind (.store _ _ _) fun _ => ih count (address + 1)

theorem guest_popDimension : Guest popDimension := by
  refine .bind (.plain fun _ _ => ⟨rfl, rfl, rfl, rfl⟩) fun value => ?_
  split <;> exact .plain fun _ _ => ⟨rfl, rfl, rfl, rfl⟩

/-- A service writes at most the bytes of a file. -/
theorem guest_perform (service : Syscall) : Guest service.perform := by
  cases service with
  | exit | assert | blit | initialized | toggleWidth => exact .plain fun _ _ => ⟨rfl, rfl, rfl, rfl⟩
  | print =>
      exact .bind (.plain fun _ _ => ⟨rfl, rfl, rfl, rfl⟩) fun _ =>
        .bind (guest_readText _) fun _ => .plain fun _ _ => ⟨rfl, rfl, rfl, rfl⟩
  | readFileChunk =>
      exact .bind (.plain fun _ _ => ⟨rfl, rfl, rfl, rfl⟩) fun _ =>
        .bind (guest_readText _) fun _ =>
        .bind (.plain fun _ _ => ⟨rfl, rfl, rfl, rfl⟩) fun _ =>
        .bind (.plain fun _ _ => ⟨rfl, rfl, rfl, rfl⟩) fun _ =>
        .bind (.plain fun _ _ => ⟨rfl, rfl, rfl, rfl⟩) fun _ =>
        .bind (guest_readFile _) fun _ =>
        .bind (.plain fun _ _ => ⟨rfl, rfl, rfl, rfl⟩) fun _ =>
        .bind (guest_copyChunk _ _ _ _) fun _ => .plain fun _ _ => ⟨rfl, rfl, rfl, rfl⟩
  | displayMode =>
      refine .bind (.plain fun _ _ => ⟨rfl, rfl, rfl, rfl⟩) fun value => ?_
      cases DisplayMode.ofWord? value <;> exact .plain fun _ _ => ⟨rfl, rfl, rfl, rfl⟩
  | displayWidth | displayHeight =>
      exact .bind guest_popDimension fun _ => .plain fun _ _ => ⟨rfl, rfl, rfl, rfl⟩

/-- So is every service. -/
theorem guest_syscall (index : Word) : Guest (syscall index) := by
  refine .look (fun _ _ => rfl) fun c => ?_
  cases c.syscalls.get? index with
  | some service => exact guest_perform service
  | none => exact .plain fun _ _ => ⟨rfl, rfl, rfl, rfl⟩

/-! ## Instructions -/

theorem guest_load (width : Width) (address : Address) : Guest (load width address) := by
  cases width <;> exact .plain fun _ _ => ⟨rfl, rfl, rfl, rfl⟩

/-- Of the instructions only `STR` and the services write. -/
theorem guest_execute (i : Instruction) : Guest i.execute := by
  cases i with
  | str =>
      exact .look (fun _ _ => rfl) fun _ =>
        .bind (.plain fun _ _ => ⟨rfl, rfl, rfl, rfl⟩) fun _ =>
        .bind (.plain fun _ _ => ⟨rfl, rfl, rfl, rfl⟩) fun _ =>
        .bind (.store _ _ _) fun _ => .plain fun _ _ => ⟨rfl, rfl, rfl, rfl⟩
  | sys =>
      exact .bind (.plain fun _ _ => ⟨rfl, rfl, rfl, rfl⟩) fun index =>
        .bind (guest_syscall index) fun _ => .plain fun _ _ => ⟨rfl, rfl, rfl, rfl⟩
  | ldr =>
      exact .look (fun _ _ => rfl) fun _ =>
        .bind (.plain fun _ _ => ⟨rfl, rfl, rfl, rfl⟩) fun _ =>
        .bind (guest_load _ _) fun _ => .plain fun _ _ => ⟨rfl, rfl, rfl, rfl⟩
  | div =>
      refine .look (fun _ _ => rfl) fun c =>
        .bind (.plain fun _ _ => ⟨rfl, rfl, rfl, rfl⟩) fun _ =>
        .bind (.plain fun _ _ => ⟨rfl, rfl, rfl, rfl⟩) fun b => ?_
      split <;> exact .plain fun _ _ => ⟨rfl, rfl, rfl, rfl⟩
  | bge target =>
      refine .look (fun _ _ => rfl) fun c => ?_
      split <;> exact .plain fun _ _ => ⟨rfl, rfl, rfl, rfl⟩
  | ret =>
      refine .look (fun _ _ => rfl) fun c => ?_
      split
      · exact .plain fun _ _ => ⟨rfl, rfl, rfl, rfl⟩
      · cases c.cpu.calls.pop? <;> exact .plain fun _ _ => ⟨rfl, rfl, rfl, rfl⟩
  | cpop =>
      refine .look (fun _ _ => rfl) fun c => ?_
      cases c.cpu.calls.pop? <;> exact .plain fun _ _ => ⟨rfl, rfl, rfl, rfl⟩
  | ldi | cmp | grt | les | add | sub | mul | lshft | rshft | push | pop | clc | sec | flp | hlt
    | iret => exact .plain fun _ _ => ⟨rfl, rfl, rfl, rfl⟩

/-- So is fetching an instruction. -/
theorem guest_fetch : Guest fetch := by
  have ends (c : Computer) : fetch.Ends c (c.instructionAt c.cpu.registers.pc).value c :=
    ends_fetch.mpr ⟨rfl, rfl⟩
  refine .plain fun s c => ?_
  obtain ⟨hresult, hleft⟩ := ends c
  obtain ⟨hresult', hleft'⟩ := ends (c.within s)
  refine ⟨by rw [hleft], by rw [hleft], ?_, by rw [hleft', hleft]⟩
  rw [hresult', hresult]
  rfl

/-! ## The host -/

/-- No program changes what the host provides. -/
theorem Guest.host_eq {x : Action α} (h : Guest x) {c d : Computer} {r : Except Fault α}
    (hends : x.Ends c r d) : d.host = c.host := by
  induction h generalizing c d with
  | plain h =>
      rw [← hends.2]
      exact (h default c).2.1
  | store width address v =>
      cases r with
      | ok =>
          obtain ⟨memory, cpu, -, rfl⟩ := ends_store_ok.mp hends
          rfl
      | error fault =>
          obtain ⟨-, rfl⟩ := ends_store_error.mp hends
          rfl
  | bind _ _ hx hf =>
      rcases ends_bind.mp hends with ⟨a, e, hfirst, hsecond⟩ | ⟨fault, hfirst, -⟩
      · exact (hf a hsecond).trans (hx hfirst)
      · exact hx hfirst
  | look _ _ hg =>
      obtain ⟨_, _, ⟨heq, rfl⟩, hsecond⟩ | ⟨fault, ⟨heq, -⟩, -⟩ := ends_bind.mp hends
      · exact hg _ hsecond
      · contradiction

end Action

end StackRisc
