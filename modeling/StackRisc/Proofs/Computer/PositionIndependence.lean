import StackRisc.Proofs.Computer.Decoding
import StackRisc.Proofs.Computer.Progress
import StackRisc.Proofs.Computer.Relocation
import StackRisc.Proofs.Computer.Stability
import StackRisc.Proofs.Display.Handoff

/-!
# StackRisc.Proofs.Computer.PositionIndependence

Programs do not depend on where their ROM is.  What a machine decodes at a
distance from its origin is in the image alone (`Computer.Loaded.instructionAt_eq`),
and executing it comes to the same wherever addresses are counted from
(`Action.inStep_execute`), unless the program looks at memory.  Hence machines
with the same image and the same view step to such machines
(`Computer.Loaded.inStep_step`), and by induction run alike.
-/

namespace StackRisc

open StackRisc.Action

/-! ## Decoding -/

/-- Number of bytes of an instruction, one where there is none. -/
def Opcode.sizeOrOne (op? : Option Opcode) : Nat := (op?.map Opcode.size).getD 1

theorem Opcode.sizeOrOne_pos (op? : Option Opcode) : 0 < sizeOrOne op? := by
  cases op? with
  | none => exact Nat.one_pos
  | some op => cases op <;> decide

/-- The instruction at an offset lies in the bytes, with its operand. -/
def Listing.FitsAt (rom : List Byte) (n : Nat) : Prop :=
  n + Opcode.sizeOrOne (Opcode.ofByte? (rom.getD n 0)) ≤ rom.length

/-- An instruction that fits starts within the image. -/
theorem Listing.FitsAt.lt {rom : List Byte} {n : Nat} (h : FitsAt rom n) : n < rom.length :=
  Nat.lt_of_lt_of_le (Nat.lt_add_of_pos_right (Opcode.sizeOrOne_pos _)) h

/-- An instruction of an image fits if it ends where the ROM does, or before. -/
theorem Listing.fitsAt_padImage {image : List Byte} {n : Nat} (op : Opcode)
    (hsize : image.length ≤ programSize)
    (hop : Opcode.ofByte? ((Computer.padImage image).getD n 0) = some op)
    (hinside : n + op.size ≤ programSize) : FitsAt (Computer.padImage image) n := by
  rw [FitsAt, hop, Computer.length_padImage hsize]
  exact hinside

theorem RegionKind.rom_ne : rom ≠ ram ∧ rom ≠ vram := by decide

/-- The bytes of the ROM are read whatever has been written to memory. -/
theorem Memory.SameMap.read8_rom {m : Memory} {layout : Layout} {rom : List Byte} {cpu : Cpu}
    {address : Address} {n : Nat} (h : (ofLayout layout rom).SameMap m)
    (haddress : address.toNat = layout.total + n) (hn : n < rom.length)
    (hbelow : rom.length < UInt32.size) : m.read8 cpu address = .quiet (rom.getD n 0) := by
  have hsize : n < (Region.rom rom).size := by
    show n < min rom.length (UInt32.size - 1)
    omega
  have hget : rom[n]? = some (rom.getD n 0) := by
    rw [List.getD_eq_getElem?_getD, List.getElem?_eq_getElem hn, Option.getD_some]
  rw [h.read8_eq (locate_rom haddress hsize) RegionKind.rom_ne.1 RegionKind.rom_ne.2,
    Memory.read8_rom haddress hget hbelow]

namespace Computer

variable {c c' : Computer} {layout layout' : Layout} {image rom : List Byte} {n : Nat}
  {address : Address}

/-- A whole instruction in the ROM is what is listed there. -/
theorem decoded_of_fitsAt (h : Listing.FitsAt rom n) :
    decoded rom n address =
      (Listing.contentAt rom n).mapError fun code =>
        .exception (.invalidInstruction code address) := by
  unfold Listing.FitsAt at h
  rw [decoded, Listing.contentAt]
  cases hop : Opcode.ofByte? (rom.getD n 0) with
  | none => rfl
  | some op =>
      rw [hop, Opcode.sizeOrOne, Option.map_some, Option.getD_some, Opcode.size] at h
      simp only [Instruction.opcode_ofOpcode]
      rw [if_neg (by rintro ⟨hoperand, -, hcut⟩; rw [if_pos hoperand] at h; omega)]
      rfl

/-- Decoding reads the operation code, and the operand if there is one. -/
theorem instructionAt_congr (hbyte : c.memory.read8 c.cpu address = c'.memory.read8 c'.cpu address)
    (hword : ∀ op, Opcode.ofByte? (c'.memory.read8 c'.cpu address).value = some op →
      op.hasOperand = true →
      c.memory.read32 c.cpu (address + 1) = c'.memory.read32 c'.cpu (address + 1)) :
    c.instructionAt address = c'.instructionAt address := by
  unfold instructionAt
  rw [hbyte]
  cases hop : Opcode.ofByte? (c'.memory.read8 c'.cpu address).value with
  | none => simp only [hop]
  | some op =>
      cases hoperand : op.hasOperand with
      | false => simp [hop, hoperand]
      | true => simp only [hop, hword op hop hoperand]

/-- The machine decodes a whole instruction in its ROM whatever it has written
to memory. -/
theorem instructionAt_rom_of_sameMap (hmap : (Memory.ofLayout layout rom).SameMap c.memory)
    (hroom : layout.total + rom.length < UInt32.size)
    (haddress : address.toNat = layout.total + n) (hfits : Listing.FitsAt rom n) :
    (c.instructionAt address).value =
      (Listing.contentAt rom n).mapError fun code =>
        .exception (.invalidInstruction code address) := by
  have hlt := hfits.lt
  have hbelow : rom.length < UInt32.size := by omega
  have hsame : c.instructionAt address =
      ({ c with memory := .ofLayout layout rom } : Computer).instructionAt address := by
    have hcode : (Memory.ofLayout layout rom).read8 c.cpu address = .quiet (rom.getD n 0) :=
      (Memory.SameMap.refl _).read8_rom haddress hlt hbelow
    refine instructionAt_congr ((hmap.read8_rom haddress hlt hbelow).trans hcode.symm)
      fun op hop hoperand => ?_
    -- With its operand the instruction is in the ROM.
    have hfour : n + 5 ≤ rom.length := by
      rw [hcode] at hop
      change Opcode.ofByte? (rom.getD n 0) = some op at hop
      rwa [Listing.FitsAt, hop, Opcode.sizeOrOne, Option.map_some, Option.getD_some, Opcode.size,
        if_pos hoperand] at hfits
    have hnext : (address + 1).toNat = layout.total + (n + 1) := by
      rw [UInt32.toNat_add, haddress]
      exact Nat.mod_eq_of_lt (by show _ < UInt32.size; simp; omega)
    have hsize : n + 1 < (Region.rom rom).size := by
      show n + 1 < min rom.length (UInt32.size - 1)
      omega
    exact hmap.read32_eq (Memory.locate_rom hnext hsize) RegionKind.rom_ne.1 RegionKind.rom_ne.2 c.cpu
  rw [hsame, instructionAt_eq_decoded rfl hroom hlt haddress, decoded_of_fitsAt hfits]

/-! ## Loaded machines -/

/-- The machine has an image in its ROM, behind the other regions of a layout,
and offers the standard services.  What has been written to RAM and VRAM is left
open. -/
structure Loaded (layout : Layout) (image : List Byte) (c : Computer) : Prop where
  size : image.length ≤ programSize
  room : layout.total + programSize < UInt32.size
  memory : (Memory.ofLayout layout (padImage image)).SameMap c.memory
  services : c.syscalls = .standard

/-- Distance of the program counter from the program origin. -/
def position (c : Computer) : Nat := (c.cpu.registers.pc - c.memory.origin).toNat

/-- The instruction at the program counter lies in the ROM.  It does not look at
memory, itself or through a service, and if it returns there is a return
address. -/
structure Portable (c : Computer) : Prop where
  inside : c.position + Opcode.sizeOrOne c.opcode? ≤ programSize
  load : c.opcode? ≠ some .ldr
  store : c.opcode? ≠ some .str
  service : c.opcode? = some .sys → c.cpu.accumulator ≠ 1 ∧ c.cpu.accumulator ≠ 6
  returns : c.opcode? = some .ret → c.cpu.registers.carry ≠ 0 → c.cpu.calls.frames ≠ []

namespace Loaded

variable (h : c.Loaded layout image)
include h

/-- A step leaves the program in its place. -/
theorem step : c.step.computer.Loaded layout image where
  size := h.size
  room := h.room
  memory := h.memory.trans (keeps_step Memory.stable_sameMap ⟨rfl, rfl⟩)
  services := (congrArg Prod.fst c.host_step).trans h.services

/-- So do any number of steps. -/
theorem after (n : Nat) : (c.after n).Loaded layout image := by
  induction n with
  | zero => exact h
  | succ n ih =>
      rw [after_succ']
      exact ih.step

theorem toNat_origin : c.memory.origin.toNat = layout.total := by
  rw [h.memory.origin_eq]
  exact Memory.toNat_origin (by have := h.room; omega)

/-- The program counter is in the ROM at its distance from the origin. -/
theorem toNat_pc (hposition : c.position < programSize) :
    c.cpu.registers.pc.toNat = layout.total + c.position := by
  have hroom := h.room
  have hpc : c.cpu.registers.pc = c.memory.origin + (c.cpu.registers.pc - c.memory.origin) := by
    grind
  rw [hpc, UInt32.toNat_add, h.toNat_origin, ← position]
  exact Nat.mod_eq_of_lt (by show _ < UInt32.size; omega)

/-- The operation code at the program counter is the one of the image. -/
theorem opcode?_eq (hposition : c.position < programSize) :
    c.opcode? = Opcode.ofByte? ((padImage image).getD c.position 0) := by
  have hlength := length_padImage h.size
  have hread : c.memory.read8 c.cpu c.cpu.registers.pc =
      .quiet ((padImage image).getD c.position 0) :=
    h.memory.read8_rom (h.toNat_pc hposition) (by omega) (by rw [hlength]; decide)
  rw [opcode?, code, hread]
  rfl

/-- The instruction at the program counter is the one of the image, where it lies
in the ROM. -/
theorem instructionAt_eq (hfits : Listing.FitsAt (padImage image) c.position) :
    (c.instructionAt c.cpu.registers.pc).value =
      (Listing.contentAt (padImage image) c.position).mapError fun code =>
        .exception (.invalidInstruction code c.cpu.registers.pc) := by
  have hlength := length_padImage h.size
  have hposition : c.position < programSize := hlength ▸ hfits.lt
  exact instructionAt_rom_of_sameMap h.memory (by rw [hlength]; exact h.room)
    (h.toNat_pc hposition) hfits

/-- A portable step stays within the program. -/
theorem fitsAt (hportable : c.Portable) : Listing.FitsAt (padImage image) c.position := by
  have hinside := hportable.inside
  have hposition : c.position < programSize :=
    Nat.lt_of_lt_of_le (Nat.lt_add_of_pos_right (Opcode.sizeOrOne_pos _)) hinside
  rwa [Listing.FitsAt, ← h.opcode?_eq hposition, length_padImage h.size]

/-- An instruction that looks at no memory is portable. -/
theorem portable (op : Opcode)
    (hop : Opcode.ofByte? ((padImage image).getD c.position 0) = some op)
    (hinside : c.position + op.size ≤ programSize) (hload : op ≠ .ldr) (hstore : op ≠ .str)
    (hservice : op ≠ .sys) (hreturns : op = .ret → c.cpu.calls.frames ≠ []) : c.Portable := by
  have hsize : 0 < op.size := by cases op <;> decide
  have hopcode := (h.opcode?_eq (by omega)).trans hop
  refine ⟨?_, ?_, ?_, ?_, ?_⟩ <;> rw [hopcode]
  · exact hinside
  · simpa using hload
  · simpa using hstore
  · simpa using fun heq => absurd heq hservice
  · simpa using fun heq _ => hreturns heq

/-- A step executes the instruction of the image. -/
theorem step_of_fitsAt (i : Instruction) (hfits : Listing.FitsAt (padImage image) c.position)
    (hi : Listing.contentAt (padImage image) c.position = .ok i) :
    c.step.computer = ((i.execute >>= i.complete).run c).computer := by
  have hvalue := h.instructionAt_eq hfits
  rw [hi] at hvalue
  obtain ⟨hresult, hleft⟩ : fetch.Ends c (.ok i) c := ends_fetch.mpr ⟨hvalue, rfl⟩
  rw [Computer.step, step_eq, (run_bind_ok hresult).2, hleft]

/-- A step executes what the image has at the position of the machine. -/
theorem step_of_content (i : Instruction) (hportable : c.Portable)
    (hi : Listing.contentAt (padImage image) c.position = .ok i) :
    c.step.computer = ((i.execute >>= i.complete).run c).computer :=
  h.step_of_fitsAt i (h.fitsAt hportable) hi

end Loaded

/-! ## Steps -/

/-- Machines with one view are at one position. -/
theorem position_eq (hview : c.view = c'.view) : c.position = c'.position :=
  congrArg (·.cpu.registers.pc.toNat) hview

/-- Machines with the same image fetch the same instruction at the same distance
from their origins. -/
theorem Loaded.inStep_fetch (h : c.Loaded layout image) (h' : c'.Loaded layout' image)
    (hview : c.view = c'.view) (hfits : Listing.FitsAt (padImage image) c.position) :
    fetch.InStep c c' := by
  obtain ⟨hresult, hleft⟩ : fetch.Ends c _ c := ends_fetch.mpr ⟨rfl, rfl⟩
  obtain ⟨hresult', hleft'⟩ : fetch.Ends c' _ c' := ends_fetch.mpr ⟨rfl, rfl⟩
  have hposition := position_eq hview
  refine ⟨?_, by rw [hleft, hleft', hview]⟩
  rw [hresult, hresult', h.instructionAt_eq hfits, h'.instructionAt_eq (hposition ▸ hfits),
    hposition]
  cases Listing.contentAt (padImage image) c'.position with
  | ok i => exact .ok i
  | error code => exact .exception rfl

/-- A portable instruction comes to the same wherever the image is. -/
theorem Loaded.inStep_step (h : c.Loaded layout image) (h' : c'.Loaded layout' image)
    (hview : c.view = c'.view) (hportable : c.Portable) : StackRisc.step.InStep c c' := by
  rw [step_eq]
  refine (h.inStep_fetch h' hview (h.fitsAt hportable)).bind fun i hi => ?_
  obtain ⟨hvalue, hleft⟩ := ends_fetch.mp ⟨hi, rfl⟩
  obtain ⟨-, hleft'⟩ : fetch.Ends c' _ c' := ends_fetch.mpr ⟨rfl, rfl⟩
  rw [← hleft, hleft']
  have hop : c.opcode? = some i.opcode := opcode_of_instructionAt hvalue
  have hexecute : i.execute.InStep c c' := by
    refine inStep_execute hview (h.services.trans h'.services.symm) ?_ ?_ ?_ ?_
    · rintro rfl
      exact hportable.load hop
    · rintro rfl
      exact hportable.store hop
    · rintro rfl
      obtain ⟨hprint, hfile⟩ := hportable.service hop
      rw [h.services]
      exact ⟨mt SyscallTable.get?_standard_eq_print_iff.mp hprint,
        mt SyscallTable.get?_standard_eq_readFileChunk_iff.mp hfile⟩
    · rintro rfl
      exact hportable.returns hop
  exact hexecute.bind fun flow _ => floats_complete i flow hexecute.view

/-! ## Pending blits -/

/-- Machines with one view have one picture, apart from the request for it. -/
theorem display_eq (hview : c.view = c'.view)
    (hpending : c.display.blitRequested = c'.display.blitRequested) : c.display = c'.display := by
  have hmode : c.display.mode = c'.display.mode := congrArg (·.mode) hview
  have hwidth : c.display.width = c'.display.width := congrArg (·.width) hview
  have hheight : c.display.height = c'.display.height := congrArg (·.height) hview
  calc c.display
    _ = ⟨c.display.mode, c.display.width, c.display.height, c.display.blitRequested⟩ := rfl
    _ = c'.display := by rw [hmode, hwidth, hheight, hpending]

/-- Without a display a step leaves no blit pending, unless it faults. -/
theorem unattached_step (hlink : c.link = none) :
    c.step.computer.link = none ∧
      (c.step.result = .ok () → c.step.computer.display.blitRequested = false) := by
  cases hr : c.step.result with
  | ok =>
      have hhands := handsOver_step hr
      rw [hlink] at hhands
      obtain ⟨hlink', hpending⟩ := hhands.of_unattached
      exact ⟨hlink', fun _ => hpending⟩
  | error fault => exact ⟨(step_error_keeps hr).2.1.trans hlink, nofun⟩

/-- Without a link, a step makes the same of the displays. -/
theorem display_step_eq (hlink : c.link = none) (hlink' : c'.link = none)
    (hstep : StackRisc.step.InStep c c') (hdisplay : c.display = c'.display) :
    c.step.computer.display = c'.step.computer.display := by
  refine display_eq hstep.view ?_
  have hresult : SameResult c.step.result c'.step.result := hstep.result
  cases hr : c.step.result with
  | ok =>
      rw [hr] at hresult
      rw [(unattached_step hlink).2 hr, (unattached_step hlink').2 hresult.eq_ok]
  | error fault =>
      rw [hr] at hresult
      obtain ⟨_, _, -, hr', -⟩ := hresult.exists_error
      rw [(step_error_keeps hr).2.2.2, (step_error_keeps hr').2.2.2, hdisplay]

theorem unattached_after (hlink : c.link = none) (n : Nat) : (c.after n).link = none := by
  induction n with
  | zero => exact hlink
  | succ n ih =>
      rw [after_succ']
      exact (unattached_step ih).1

/-! ## Runs -/

namespace Loaded

variable (h : c.Loaded layout image) (h' : c'.Loaded layout' image) (hview : c.view = c'.view)
  (hportable : ∀ k < n, (c.after k).Portable)
include h h' hview hportable

/-- The views stay equal. -/
theorem view_after : (c.after n).view = (c'.after n).view := by
  induction n with
  | zero => exact hview
  | succ n ih =>
      have hbefore := ih fun k hk => hportable k (Nat.lt_succ_of_lt hk)
      have hstep := (h.after n).inStep_step (h'.after n) hbefore (hportable n (Nat.lt_succ_self n))
      rw [after_succ', after_succ']
      exact hstep.view

/-- Every step gives the same result. -/
theorem inStep_after {k : Nat} (hk : k < n) : StackRisc.step.InStep (c.after k) (c'.after k) := by
  have hbefore := view_after h h' hview fun j hj => hportable j (Nat.lt_trans hj hk)
  exact (h.after k).inStep_step (h'.after k) hbefore (hportable k hk)

/-- Without a link, the displays stay equal. -/
theorem display_after (hlink : c.link = none) (hlink' : c'.link = none)
    (hdisplay : c.display = c'.display) : (c.after n).display = (c'.after n).display := by
  induction n with
  | zero => exact hdisplay
  | succ n ih =>
      have hbefore := ih fun k hk => hportable k (Nat.lt_succ_of_lt hk)
      rw [after_succ', after_succ']
      exact display_step_eq (unattached_after hlink n) (unattached_after hlink' n)
        (inStep_after h h' hview hportable (Nat.lt_succ_self n)) hbefore

end Loaded

/-- A program runs alike wherever its image is, as long as it executes portable
instructions: every step comes to the same, and leaves machines with the same
view.  Without a display they have the same blits pending. -/
theorem position_independent (h : c.Loaded layout image) (h' : c'.Loaded layout' image)
    (hview : c.view = c'.view) (hportable : ∀ k < n, (c.after k).Portable) :
    (∀ k ≤ n, (c.after k).view = (c'.after k).view) ∧
    (∀ k < n, SameResult (c.after k).step.result (c'.after k).step.result) ∧
    (c.link = none → c'.link = none → c.display = c'.display →
      ∀ k ≤ n, (c.after k).display = (c'.after k).display) := by
  have first {k : Nat} (hk : k ≤ n) : ∀ j < k, (c.after j).Portable :=
    fun j hj => hportable j (Nat.lt_of_lt_of_le hj hk)
  refine ⟨fun k hk => h.view_after h' hview (first hk),
    fun k hk => (h.inStep_after h' hview hportable hk).result,
    fun hlink hlink' hdisplay k hk =>
      h.display_after h' hview (first hk) hlink hlink' hdisplay⟩

/-- `SEC`, `BGE $7` and `HLT`, and at 7 the `RET` that leads back to the `HLT`. -/
def callImage : List Byte := [9, 0, 7, 0, 0, 0, 11, 10]

/-- A machine that executes this program. -/
def calling (layout : Layout) (cycles : Nat) (carry : Byte) (pc : Address)
    (frames : List Address) : Computer :=
  { ofImage { layout, files := .empty } callImage with
    cpu := { registers := { carry, pc }, calls := ⟨frames⟩ }
    cycles }

/-- The example has its image in the ROM, at any origin with room for it. -/
theorem loaded_calling {layout : Layout} (hroom : layout.total + programSize < UInt32.size)
    (cycles : Nat) (carry : Byte) (pc : Address) (frames : List Address) :
    (calling layout cycles carry pc frames).Loaded layout callImage :=
  ⟨by decide, hroom, .refl _, rfl⟩

theorem portable_calling_set : (calling ⟨64, 16, 16, 16⟩ 0 0 112 []).Portable :=
  (loaded_calling (by decide) 0 0 112 []).portable .sec rfl (by decide) nofun nofun nofun nofun

/-- The `SEC` is executed. -/
theorem step_calling_set : (calling ⟨64, 16, 16, 16⟩ 0 0 112 []).step.computer =
    calling ⟨64, 16, 16, 16⟩ 1 1 113 [] :=
  (loaded_calling (by decide) 0 0 112 []).step_of_content .sec portable_calling_set rfl

theorem portable_calling_branch : (calling ⟨64, 16, 16, 16⟩ 1 1 113 []).Portable :=
  (loaded_calling (by decide) 1 1 113 []).portable .bge rfl (by decide) nofun nofun nofun nofun

/-- The `BGE` is taken. -/
theorem step_calling_branch : (calling ⟨64, 16, 16, 16⟩ 1 1 113 []).step.computer =
    calling ⟨64, 16, 16, 16⟩ 2 1 119 [118] :=
  (loaded_calling (by decide) 1 1 113 []).step_of_content (.bge 7) portable_calling_branch rfl

theorem portable_calling_return : (calling ⟨64, 16, 16, 16⟩ 2 1 119 [118]).Portable :=
  (loaded_calling (by decide) 2 1 119 [118]).portable .ret rfl (by decide) nofun nofun nofun nofun

/-- All steps of the example are portable. -/
theorem portable_calling :
    ∀ k < 3, ((calling ⟨64, 16, 16, 16⟩ 0 0 112 []).after k).Portable := by
  intro k hk
  match k, hk with
  | 0, _ => exact portable_calling_set
  | 1, _ =>
      rw [after_succ', after_zero, step_calling_set]
      exact portable_calling_branch
  | 2, _ =>
      rw [after_succ', after_succ', after_zero, step_calling_set, step_calling_branch]
      exact portable_calling_return

/-- The call comes to the same from the addresses 112 and 40. -/
theorem position_independent_call :
    (∀ k < 3, ((calling ⟨64, 16, 16, 16⟩ 0 0 112 []).after k).Portable) ∧
      ∀ k ≤ 3, ((calling ⟨64, 16, 16, 16⟩ 0 0 112 []).after k).view =
        ((calling ⟨0, 0, 32, 8⟩ 0 0 40 []).after k).view := by
  have h := @loaded_calling ⟨64, 16, 16, 16⟩ (by decide) 0 0 112 []
  have h' := @loaded_calling ⟨0, 0, 32, 8⟩ (by decide) 0 0 40 []
  exact ⟨portable_calling, (position_independent h h' rfl portable_calling).1⟩

end Computer

end StackRisc
