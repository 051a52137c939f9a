import StackRisc.Debugger.Session
import StackRisc.Proofs.Computer.Decoding

/-!
# StackRisc.Proofs.Debugger.Listing

What the debugger lists of a program that it has not run yet, against the
listing of its image.  The debugger fetches one instruction after the other and
remembers where it stopped, so several `list` commands go on like one:

* `Listed.log_instructions_add` — showing instructions in two turns;
* `Listed.Fresh.instruction_eq` — an entry of the listing as the debugger
  shows it;
* `Session.log_obeyAll_list` — what `list` commands show one after the other;
* `list_walks_listing` — that is the listing, however it is divided.
-/

namespace StackRisc.Debugger

/-! ## Rows -/

namespace Listed

/-- Showing some instructions and then some more shows the same as showing all
of them at once. -/
theorem log_instructions_add (v : Listed) (count more : Nat) (start : Address) :
    (v.instructions (count + more) start).log =
      (v.instructions count start).log ++
        (v.instructions more (v.instructions count start).value).log := by
  induction count generalizing start with
  | zero => rw [Nat.zero_add]; rfl
  | succ count ih =>
      rw [Nat.add_right_comm, instructions, Logged.log_bind, ih, instructions, Logged.log_bind,
        List.append_assoc]
      rfl

/-- The row of an entry: its address, and its text, or a dash where it has no
instruction. -/
def entryRow (v : Listed) (e : ListingEntry) : Event :=
  let address := v.origin + UInt32.ofNat e.offset
  let text := match e.content with
    | .ok i => i.text
    | .error _ => "–"
  .info (v.gutter address ++ " " ++ Text.hexAddress address ++ "    " ++ text)

/-- An entry as it is shown: the labels at its address, then its row. -/
def entryRows (v : Listed) (e : ListingEntry) : List Event :=
  v.labelRows (v.origin + UInt32.ofNat e.offset) ++ [v.entryRow e]

/-- A row of the debugger is the row of the entry at its offset. -/
theorem row_eq_entryRow (v : Listed) (e : ListingEntry) :
    v.row (v.origin + UInt32.ofNat e.offset) e.content.toOption = v.entryRow e := by
  rw [entryRow]
  cases e.content <;> rfl

/-- What is shown is a machine that has loaded an image and has not run. -/
structure Fresh (v : Listed) (config : Config) (image : List Byte) : Prop where
  computer : v.computer = .ofImage config image
  origin : v.origin = v.computer.memory.origin
  fits : image.length ≤ programSize
  room : config.layout.total + programSize < UInt32.size

namespace Fresh

variable {v : Listed} {config : Config} {image : List Byte} (h : v.Fresh config image)

include h

/-- An entry whose bytes are all in the ROM is shown as it is listed, and the
next one is behind it. -/
theorem instruction_eq {e : ListingEntry} (hinside : e.offset ≤ 4091)
    (hcontent : e.content = Listing.contentAt image e.offset) :
    v.instruction (v.origin + UInt32.ofNat e.offset) =
      ⟨v.origin + UInt32.ofNat (e.offset + e.size), v.entryRows e⟩ := by
  have hlength := Computer.length_padImage h.fits
  have hmemory : v.computer.memory = .ofLayout config.layout (Computer.padImage image) := by
    rw [h.computer]
    rfl
  have hroom : config.layout.total + (Computer.padImage image).length < UInt32.size := by
    rw [hlength]
    exact h.room
  have hrom : e.offset + 4 < (Computer.padImage image).length := by
    rw [hlength, programSize]
    omega
  have haddress : (v.origin + UInt32.ofNat e.offset).toNat = config.layout.total + e.offset := by
    rw [h.origin, h.computer]
    exact Computer.toNat_origin_add h.room (by rw [programSize]; omega)
  have hfound : (v.computer.instructionAt (v.origin + UInt32.ofNat e.offset)).value.toOption =
      e.content.toOption := by
    rw [Computer.instructionAt_eq_decoded hmemory hroom (by omega) haddress,
      Computer.toOption_decoded hrom, Computer.padImage, Listing.contentAt_append_replicate,
      ← hcontent]
  simp only [instruction, hfound, Computer.log_instructionAt hmemory hroom hrom haddress,
    row_eq_entryRow, List.append_nil]
  rw [entryRows, UInt32.ofNat_add, ← UInt32.add_assoc, ListingEntry.size]
  cases e.content <;> rfl

/-- Instructions shown from an entry on are the entries from there on, as long
as none of them is too close to the end of the ROM. -/
theorem log_instructions {es : List ListingEntry} {offset stop count : Nat}
    (htiles : Listing.Tiles offset stop es)
    (hcontent : ∀ e ∈ es, e.content = Listing.contentAt image e.offset)
    (hcount : count ≤ (es.filter (·.offset ≤ 4091)).length) :
    (v.instructions count (v.origin + UInt32.ofNat offset)).log =
      ((es.filter (·.offset ≤ 4091)).take count).flatMap v.entryRows := by
  induction es generalizing offset count with
  | nil =>
      obtain rfl := Nat.le_zero.mp hcount
      rfl
  | cons e es ih =>
      have hfirst := htiles.le_offset
      obtain ⟨rfl, hrest⟩ := htiles
      obtain ⟨he, hes⟩ := List.forall_mem_cons.mp hcontent
      by_cases hinside : e.offset ≤ 4091
      · rw [List.filter_cons_of_pos (by simpa using hinside)] at hcount ⊢
        cases count with
        | zero => rfl
        | succ count =>
            rw [instructions, Logged.log_bind, h.instruction_eq hinside he,
              ih hrest hes (Nat.le_of_succ_le_succ hcount), List.take_succ_cons, List.flatMap_cons]
      · -- The entries behind it are even closer to the end.
        have hnone : (e :: es).filter (·.offset ≤ 4091) = [] := by
          refine List.filter_eq_nil_iff.mpr fun x hx => ?_
          have := hfirst x hx
          simp only [decide_eq_true_eq]
          omega
        rw [hnone] at hcount ⊢
        obtain rfl := Nat.le_zero.mp hcount
        rfl

end Fresh

end Listed

/-! ## Commands -/

namespace Session

/-- Where the next listing starts. -/
def listStart (s : Session) : Address := s.listFrom.getD s.computer.cpu.registers.pc

/-- The session after some commands, and all that they showed.  Once one of them
has ended it, it obeys no more. -/
def obeyAll (s : Session) : List Command → Logged Session
  | [] => .quiet s
  | command :: rest =>
    let t := s.obey command
    if t.ended then ⟨t.session, t.log.toList⟩
    else
      let later := obeyAll t.session rest
      ⟨later.value, t.log.toList ++ later.log⟩

/-- Listing does not need a machine that can still run. -/
theorem obey_list (s : Session) (count : Nat) : s.obey (.list count) = s.list count := by
  rw [obey, Command.needsMachine, Bool.and_false, if_neg Bool.false_ne_true]
  rfl

/-- Commands that list go on where the one before them stopped. -/
theorem log_obeyAll_list (s : Session) (counts : List Nat) :
    (s.obeyAll (counts.map .list)).log =
      (s.listed.instructions counts.sum s.listStart).log := by
  induction counts generalizing s with
  | nil => rfl
  | cons count counts ih =>
      have hnext : ((s.list count).session.obeyAll (counts.map .list)).log =
          (s.listed.instructions counts.sum (s.listed.instructions count s.listStart).value).log :=
        ih (s.list count).session
      rw [List.map_cons, obeyAll, obey_list, List.sum_cons, Listed.log_instructions_add, ← hnext]
      rfl

end Session

/-- On a machine that has loaded an image and has not run, commands that list
show the entries of its listing, in order and each of them once, as long as
there are some at offsets up to 4091.  Each entry is shown at the address of
its offset in the program, with the same text, or with a dash where it has no
instruction, behind the labels that are there.  It makes no difference how the
entries are divided between the commands. -/
theorem list_walks_listing {config : Config} {image : List Byte}
    (hfits : image.length ≤ programSize)
    (hlayout : config.layout.ram.toNat + config.layout.vram.toNat +
      config.layout.systemPage.toNat + config.layout.stack.toNat + programSize < UInt32.size)
    (symbols : Symbols) (breakpoints : List Address) :
    ∃ c, Computer.load config image = .ok c ∧
      let s : Session := { Session.start c symbols with breakpoints }
      let entries := (Listing.ofImage image).filter (·.offset ≤ 4091)
      (∀ counts : List Nat, ∃ rest,
        (s.obeyAll (counts.map .list)).log =
          (entries.take counts.sum).flatMap s.listed.entryRows ++ rest ∧
        (counts.sum ≤ entries.length → rest = [])) ∧
      ∀ counts counts' : List Nat, counts.sum = counts'.sum →
        (s.obeyAll (counts.map .list)).log = (s.obeyAll (counts'.map .list)).log := by
  refine ⟨_, Computer.load_eq hfits, ?_⟩
  intro s entries
  refine ⟨fun counts => ?_, fun counts counts' hsum => ?_⟩
  · obtain ⟨stop, htiles, -⟩ :=
      @Listing.tiles_walk 0 _ _ (Nat.le_refl (Listing.trimZeros image).length)
    have hfresh : s.listed.Fresh config image := ⟨rfl, rfl, hfits, hlayout⟩
    have hstart : s.listStart = s.listed.origin + UInt32.ofNat 0 := (UInt32.add_zero _).symm
    have hlog : ∀ count ≤ entries.length,
        (s.listed.instructions count s.listStart).log =
          (entries.take count).flatMap s.listed.entryRows := fun count hcount => by
      rw [hstart]
      exact hfresh.log_instructions htiles
        (fun e he => (Listing.content_of_mem_ofImage he).2) hcount
    rw [Session.log_obeyAll_list]
    rcases Nat.lt_or_ge entries.length counts.sum with hlt | hle
    · obtain ⟨more, hmore⟩ := Nat.exists_eq_add_of_le (Nat.le_of_lt hlt)
      let next := (s.listed.instructions entries.length s.listStart).value
      refine ⟨(s.listed.instructions more next).log, ?_, fun hle => absurd hlt (Nat.not_lt.mpr hle)⟩
      rw [hmore, Listed.log_instructions_add, hlog _ (Nat.le_refl _), List.take_length,
        List.take_of_length_le (Nat.le_add_right _ _)]
    · exact ⟨[], by rw [hlog _ hle, List.append_nil], fun _ => rfl⟩
  · rw [Session.log_obeyAll_list, Session.log_obeyAll_list, hsum]

/-- A byte without an instruction between two instructions, listed by two
commands. -/
theorem list_walks_listing_invalid :
    ∃ c, Computer.load { files := .empty } [0x01, 7, 0, 0, 0, 0xff, 0x0b] = .ok c ∧
      ((Session.start c {}).obeyAll [.list 1, .list 2]).log =
        [.info " > 0x03fffffc    LDI   #7", .info "   0x04000001    –",
          .info "   0x04000002    HLT"] := by
  obtain ⟨c, hload, hlog, -⟩ := @list_walks_listing { files := .empty }
    [0x01, 7, 0, 0, 0, 0xff, 0x0b] (by decide) (by decide) {} []
  obtain ⟨rest, hrows, hrest⟩ := hlog [1, 2]
  obtain rfl : Computer.ofImage { files := .empty } [0x01, 7, 0, 0, 0, 0xff, 0x0b] = c :=
    Except.ok.inj ((Computer.load_eq (by decide)).symm.trans hload)
  refine ⟨_, hload, hrows.trans ?_⟩
  rw [hrest (by decide), List.append_nil]
  rfl

end StackRisc.Debugger
