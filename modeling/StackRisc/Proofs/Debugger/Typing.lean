import StackRisc.Debugger.Prompt
import StackRisc.Debugger.Session
import StackRisc.Proofs.CommandLine.Words
import StackRisc.Proofs.Source.Reading
import StackRisc.Proofs.Text.Literal

/-!
# StackRisc.Proofs.Debugger.Typing

Addresses as they are typed behind a command.  A line becomes words before the
notation of the assembler is looked at, and a `#` in front of a word opens a
comment there.  So the command gets a number of base sixteen as it is typed,
but one of base ten only between quotes:

* `Session.answers_bare`, `Session.answers_quoted`, `Session.answers_comment` —
  what reaches a command that takes an address;
* `log_memoryRows_sixteen` — what is shown from an address on;
* `answers_number` — a number behind `break` and behind `memory`;
* `break_misses_decimal` — a number in base ten that is a comment.
-/

namespace StackRisc.Debugger

open CommandLine Text

/-! ## Lines as they are typed -/

section

variable {line : String}

/-- A line that nothing is taken back from. -/
structure IsClean (line : String) : Prop where
  backspace : Text.backspace ∉ line.toList
  carriageReturn : '\r' ∉ line.toList

/-- Clean texts one after the other are clean. -/
theorem IsClean.append {a b : String} (ha : IsClean a) (hb : IsClean b) : IsClean (a ++ b) := by
  constructor
  · simp [String.toList_append, ha.backspace, hb.backspace]
  · simp [String.toList_append, ha.carriageReturn, hb.carriageReturn]

theorem dropReturn_eq_self (h : '\r' ∉ line.toList) : dropReturn line = line := by
  have hend : endsWithReturn line = false := by
    rw [endsWithReturn, beq_eq_false_iff_ne]
    exact fun hlast => h (List.mem_of_getLast? hlast)
  rw [dropReturn, hend, if_neg Bool.false_ne_true]

/-- A clean line whose quotes are closed is complete as it is. -/
theorem addLine_eq_complete {words : List String} (hclean : IsClean line)
    (hwords : words? line = some words) : addLine "" line = .complete line := by
  have htext : withoutBackspaces ("" ++ dropReturn line) = line := by
    rw [dropReturn_eq_self hclean.carriageReturn, String.empty_append,
      withoutBackspaces_eq_self hclean.backspace]
  rw [addLine, htext, hwords, Option.isSome_some, if_pos rfl]

end

/-! ## Numbers as they are typed -/

section

variable {text : String} {v : Int} (ht : Argument.ofText text = .ok (.number v))
  (hblank : ∀ c ∈ text.toList, isBlank c = false)

include ht hblank

/-- A typed number is a numeral, but for the case of its digits. -/
theorem Argument.isNumeral_of_ofText : IsNumeral (upper text.toList) := by
  rw [ofText, trim_eq_self_of_forall hblank] at ht
  split at ht
  · next literal hscan =>
    have hnumber : literal.number? = some v := by
      cases literal with
      | hex n | decimal n =>
          cases ht
          rfl
      | reference name => cases ht
    exact Literal.isNumeral_of_scan hscan hnumber
  · contradiction
  · contradiction

/-- A typed number has no other characters. -/
theorem not_mem_of_number {c : Char} (hc : isNumeralChar c.toUpper = false) :
    c ∉ text.toList := by
  intro hmem
  have hnumeral := (Argument.isNumeral_of_ofText ht hblank).chars _ (List.mem_map_of_mem hmem)
  rw [hc] at hnumeral
  contradiction

/-- Numerals are clean. -/
theorem isClean_of_number : IsClean text :=
  ⟨not_mem_of_number ht hblank (by decide), not_mem_of_number ht hblank (by decide)⟩

/-- A number that does not open a comment needs no quotes. -/
theorem isBare_of_number (hstart : text.toList.head? ≠ some '#') : IsBare text.toList := by
  have hno : ∀ {d : Char}, isNumeralChar d.toUpper = false → ∀ c ∈ text.toList, c ≠ d := by
    rintro d hd c hc rfl
    exact not_mem_of_number ht hblank hd hc
  refine ⟨?_, hstart, fun c hc => ?_⟩
  · intro hnil
    have hmark := (Argument.isNumeral_of_ofText ht hblank).mark
    rw [hnil] at hmark
    simp [upper] at hmark
  · simp [isOrdinary, isSeparator, hno (d := ' ') (by decide) c hc,
      hno (d := '\t') (by decide) c hc, hno (d := '\n') (by decide) c hc,
      hno (d := '\'') (by decide) c hc, hno (d := '"') (by decide) c hc,
      hno (d := '\\') (by decide) c hc]

/-- A number does not look like an option. -/
theorem shapeOf_number : shapeOf text = .plain := by
  have hmark := (Argument.isNumeral_of_ofText ht hblank).mark
  have hhyphen : ∀ rest, text.toList ≠ '-' :: rest := by
    intro rest heq
    rw [heq] at hmark
    revert hmark
    simp [upper]
  unfold shapeOf
  split
  · next heq => exact absurd heq (hhyphen _)
  · next heq => exact absurd heq (hhyphen _)
  · next heq => exact absurd heq (hhyphen _)
  · rfl

end

/-! ## Commands that take an address -/

/-- A name behind which a command takes an address, which it needs. -/
structure TakesAddress (name : String) (command : Argument → Command) : Prop where
  bare : IsBare name.toList
  clean : IsClean name
  given {word : String} {a : Argument} (hplain : shapeOf word = .plain)
    (ha : Argument.ofText word = .ok a) : Command.ofWords [name, word] = .ok (command a)
  missing : Command.ofWords [name] = .error .missingArgument

namespace TakesAddress

variable {name : String} {command : Argument → Command}

/-- A command whose first parameter is an address, and which means nothing
without. -/
theorem of_choose? {t : CommandTree Value Command} {f : Given Value → Option Command}
    (hbare : IsBare name.toList) (hclean : IsClean name)
    (hnames : ((commandTree.choices.map Prod.fst).all fun names =>
      names.any (·.startsWith name) == names.contains name) = true)
    (hchoose : commandTree.choose? name = some (.command t)) (hcommands : t.commands = [])
    (hparameter : t.parameters[0]? = some addressParameter) (hmeaning : t.meaning = some f)
    (hgiven : ∀ a, f { values := [(addressName, .address a)] } = some (command a))
    (hmissing : f {} = none) : TakesAddress name command := by
  have hlookup : commandTree.lookup? true name = some (.command t) := by
    rw [CommandTree.lookup?, if_pos rfl,
      CommandTree.abbreviated?_eq_choose? (by simpa using hnames), hchoose]
  refine ⟨hbare, hclean, fun {word a} hplain ha => ?_, ?_⟩
  · have hread : readAddress word = .ok (.address a) := by rw [readAddress, ha]
    rw [Command.ofWords, CommandTree.parse_command hlookup,
      CommandTree.parseFrom_parameter hcommands hparameter hplain]
    simp [CommandTree.finish, Progress.settle, Given.addParameter, readValue, addressParameter,
      hread, hmeaning, hgiven, Except.mapError, bind, Except.bind, pure, Except.pure]
  · rw [Command.ofWords, CommandTree.parse_command hlookup]
    simp [CommandTree.parseFrom, CommandTree.finish, Progress.settle, hmeaning, hmissing, bind,
      Except.bind]

/-- Nothing but the commands themselves begins with their names. -/
theorem any_startsWith_name :
    (["break", "memory"].all fun word => (commandTree.choices.map Prod.fst).all fun names =>
      names.any (·.startsWith word) == names.contains word) = true := by
  decide +kernel

/-- Breakpoints take an address. -/
theorem setBreak : TakesAddress "break" .setBreak :=
  of_choose? ⟨by decide, by decide, List.all_eq_true.mp (by decide)⟩ ⟨by decide, by decide⟩
    (List.all_eq_true.mp any_startsWith_name _ (by decide)) rfl rfl rfl rfl (fun _ => rfl) rfl

/-- Unless a count is typed as well, sixteen bytes are shown. -/
theorem memory : TakesAddress "memory" (.memory · 16) :=
  of_choose? ⟨by decide, by decide, List.all_eq_true.mp (by decide)⟩ ⟨by decide, by decide⟩
    (List.all_eq_true.mp any_startsWith_name _ (by decide)) rfl rfl rfl rfl (fun _ => rfl) rfl

end TakesAddress

/-! ## What a session does -/

/-- What is told when the address of a command is missing. -/
def missingAddress : Event := .warn "" [("error", UsageError.missingArgument.message)]

/-- What a session does with a line, when no line before it is held back. -/
def Session.Answers (s : Session) (line : String) (t : Turn) : Prop :=
  addLine "" line = .complete line ∧ s.hear Command.ofLine line = t

namespace Session

variable {s : Session} {line : String}

/-- A line that is understood is answered by its command. -/
theorem answers_of_ofWords {words : List String} {c : Command} (hne : line.isEmpty = false)
    (hclean : IsClean line) (hwords : words? line = some words)
    (hc : Command.ofWords words = .ok c) : s.Answers line ({ s with last := some c }.obey c) := by
  refine ⟨addLine_eq_complete hclean hwords, ?_⟩
  have hline : Command.ofLine line = .ok c := by
    simp only [Command.ofLine, hwords, hc]
  rw [hear, hne, if_neg Bool.false_ne_true, hline]

/-- A line that is not understood is answered by the reason. -/
theorem answers_of_refused {words : List String} {e : UsageError} (hne : line.isEmpty = false)
    (hclean : IsClean line) (hwords : words? line = some words)
    (he : Command.ofWords words = .error e) :
    s.Answers line (s.showing [.warn "" [("error", e.message)]]) := by
  refine ⟨addLine_eq_complete hclean hwords, ?_⟩
  have hline : Command.ofLine line = .error (.warn "" [("error", e.message)]) := by
    simp only [Command.ofLine, hwords, he]
  rw [hear, hne, if_neg Bool.false_ne_true, hline]

/-- A command is carried out unless the machine has halted. -/
theorem obey_eq_perform (hgoing : s.halted = false) (c : Command) : s.obey c = s.perform c := by
  rw [obey, hgoing, Bool.false_and, if_neg Bool.false_ne_true]

section

variable {v : Int} (hgoing : s.halted = false) (h0 : 0 ≤ v) (h1 : v < UInt32.size)

include h0 h1 in
/-- A number is its own address. -/
theorem withAddress_number (f : Address → Turn) :
    s.withAddress (.number v) f = f (UInt32.ofNat v.toNat) := by
  simp only [withAddress, Argument.resolve, Argument.addressOf, if_pos (And.intro h0 h1)]

include hgoing h0 h1

/-- A breakpoint is set at the number that was typed. -/
theorem obey_setBreak_number :
    s.obey (.setBreak (.number v)) = s.setBreak (UInt32.ofNat v.toNat) :=
  (obey_eq_perform hgoing _).trans (withAddress_number h0 h1 _)

/-- Memory is shown from the number that was typed on. -/
theorem obey_memory_number (count : Nat) :
    s.obey (.memory (.number v) count) =
      s.showing (memoryRows s.computer count (UInt32.ofNat v.toNat)).log :=
  (obey_eq_perform hgoing _).trans (withAddress_number h0 h1 _)

end

section

variable {name text : String} {command : Argument → Command} {v : Int}
  (hname : TakesAddress name command) (ht : Argument.ofText text = .ok (.number v))
  (hblank : ∀ c ∈ text.toList, isBlank c = false)

include hname ht hblank

/-- A number that does not open a comment reaches the command. -/
theorem answers_bare (hstart : text.toList.head? ≠ some '#') :
    s.Answers (name ++ " " ++ text)
      ({ s with last := some (command (.number v)) }.obey (command (.number v))) :=
  answers_of_ofWords (by simp)
    ((hname.clean.append ⟨by decide, by decide⟩).append (isClean_of_number ht hblank))
    (words?_bare hname.bare (isBare_of_number ht hblank hstart))
    (hname.given (shapeOf_number ht hblank) ht)

/-- A number between single quotes reaches the command. -/
theorem answers_quoted :
    s.Answers (name ++ " " ++ ("'" ++ text ++ "'"))
      ({ s with last := some (command (.number v)) }.obey (command (.number v))) := by
  have hquote : IsClean "'" := ⟨by decide, by decide⟩
  have hquoted : IsClean ("'" ++ text ++ "'") :=
    (hquote.append (isClean_of_number ht hblank)).append hquote
  exact answers_of_ofWords (by simp)
    ((hname.clean.append ⟨by decide, by decide⟩).append hquoted)
    (words?_quoted hname.bare (not_mem_of_number ht hblank (by decide)))
    (hname.given (shapeOf_number ht hblank) ht)

/-- A number in base ten is a comment, and the command gets nothing. -/
theorem answers_comment (hstart : text.toList.head? = some '#') :
    s.Answers (name ++ " " ++ text) (s.showing [missingAddress]) :=
  answers_of_refused (by simp)
    ((hname.clean.append ⟨by decide, by decide⟩).append (isClean_of_number ht hblank))
    (words?_comment hname.bare hstart (not_mem_of_number ht hblank (by decide))) hname.missing

end

end Session

/-! ## Breakpoints and bytes -/

/-- A breakpoint is added to those that were set. -/
theorem mem_insertBreak {a b : Address} {breakpoints : List Address} :
    b ∈ insertBreak a breakpoints ↔ b = a ∨ b ∈ breakpoints := by
  fun_induction insertBreak a breakpoints with
  | case1 => simp
  | case2 => simp
  | case3 => simp
  | case4 first rest _ _ ih =>
      rw [List.mem_cons, ih, List.mem_cons]
      exact or_left_comm

/-- The bytes from an address on, as they are read one by one. -/
def bytesAt (c : Computer) (count : Nat) (start : Address) : List Byte :=
  (List.range count).map fun i => (c.memory.read8 c.cpu (start + UInt32.ofNat i)).value

theorem value_readBytes (c : Computer) (count : Nat) (start : Address) :
    (readBytes c count start).value = bytesAt c count start := by
  induction count generalizing start with
  | zero => rfl
  | succ count ih =>
      have hnext : ∀ i, start + 1 + UInt32.ofNat i = start + UInt32.ofNat (i + 1) := by
        intro i
        rw [UInt32.ofNat_add, UInt32.add_assoc, UInt32.add_comm 1]
        rfl
      simp only [readBytes, Logged.value_bind, Logged.value_pure, ih, bytesAt,
        List.range_succ_eq_map, List.map_cons, List.map_map, Function.comp_def, hnext]
      simp

/-- The first row is shown, and then the rest. -/
theorem log_memoryRows (c : Computer) {count : Nat} (hcount : count ≠ 0) (start : Address) :
    (memoryRows c count start).log =
      (readBytes c (min rowSize count) start).log ++
        memoryRow start (bytesAt c (min rowSize count) start) ::
          (memoryRows c (count - rowSize) (start + UInt32.ofNat rowSize)).log := by
  rw [memoryRows, if_neg hcount]
  simp [note, Logged.noting, value_readBytes]

/-- Sixteen bytes are shown in two rows, each behind what is told while it is
read. -/
theorem log_memoryRows_sixteen (c : Computer) (start : Address) :
    (memoryRows c 16 start).log =
      (readBytes c 8 start).log ++ memoryRow start (bytesAt c 8 start) ::
        ((readBytes c 8 (start + 8)).log ++ [memoryRow (start + 8) (bytesAt c 8 (start + 8))]) := by
  have hfirst : (memoryRows c 16 start).log =
      (readBytes c 8 start).log ++ memoryRow start (bytesAt c 8 start) ::
        (memoryRows c 8 (start + 8)).log :=
    log_memoryRows c (by decide) start
  have hsecond : (memoryRows c 8 (start + 8)).log =
      (readBytes c 8 (start + 8)).log ++ memoryRow (start + 8) (bytesAt c 8 (start + 8)) ::
        (memoryRows c 0 (start + 8 + 8)).log :=
    log_memoryRows c (by decide) (start + 8)
  have hnone : (memoryRows c 0 (start + 8 + 8)).log = [] := by
    rw [memoryRows]
    rfl
  rw [hfirst, hsecond, hnone]

/-! ## Numbers behind commands -/

/-- A number from zero up to the last address, typed behind `break` and behind
`memory` in a session whose program can still run.  As it is typed if it begins
with `$` or `@`, and between single quotes in any case, `break` adds the
breakpoint and `memory` shows the bytes from there on.  A number that begins
with `#` is a comment if it is typed without quotes: both commands then miss
their address, and nothing happens. -/
theorem answers_number {s : Session} {text : String} {v : Int} (hgoing : s.halted = false)
    (ht : Argument.ofText text = .ok (.number v))
    (hblank : ∀ c ∈ text.toList, isBlank c = false) (h0 : 0 ≤ v) (h1 : v < UInt32.size) :
    let a : Address := UInt32.ofNat v.toNat
    let marked := { s with last := some (.setBreak (.number v)) }.setBreak a
    let shown := { s with last := some (.memory (.number v) 16) }.showing
      (memoryRows s.computer 16 a).log
    (∀ b, b ∈ marked.session.breakpoints ↔ b = a ∨ b ∈ s.breakpoints) ∧
    shown.log.toList =
      (readBytes s.computer 8 a).log ++ memoryRow a (bytesAt s.computer 8 a) ::
        ((readBytes s.computer 8 (a + 8)).log ++
          [memoryRow (a + 8) (bytesAt s.computer 8 (a + 8))]) ∧
    (text.toList.head? ≠ some '#' →
      s.Answers ("break " ++ text) marked ∧ s.Answers ("memory " ++ text) shown) ∧
    (text.toList.head? = some '#' →
      s.Answers ("break " ++ text) (s.showing [missingAddress]) ∧
      s.Answers ("memory " ++ text) (s.showing [missingAddress])) ∧
    s.Answers ("break '" ++ text ++ "'") marked ∧ s.Answers ("memory '" ++ text ++ "'") shown := by
  intro a marked shown
  have hset :
      { s with last := some (.setBreak (.number v)) }.obey (.setBreak (.number v)) = marked :=
    Session.obey_setBreak_number hgoing h0 h1
  have hshown :
      { s with last := some (.memory (.number v) 16) }.obey (.memory (.number v) 16) = shown :=
    Session.obey_memory_number (s := { s with last := some (.memory (.number v) 16) }) hgoing h0
      h1 16
  have hbreak : "break " = "break" ++ " " := by decide
  have hmemory : "memory " = "memory" ++ " " := by decide
  have hbreak' : "break '" ++ text ++ "'" = "break" ++ " " ++ ("'" ++ text ++ "'") := by
    rw [String.append_assoc, String.append_assoc]
    rfl
  have hmemory' : "memory '" ++ text ++ "'" = "memory" ++ " " ++ ("'" ++ text ++ "'") := by
    rw [String.append_assoc, String.append_assoc]
    rfl
  rw [hbreak, hmemory, hbreak', hmemory', ← hset, ← hshown]
  refine ⟨fun b => ?_, ?_, fun hstart => ?_, fun hstart => ?_, ?_, ?_⟩
  · rw [hset]
    exact mem_insertBreak
  · rw [hshown]
    exact log_memoryRows_sixteen s.computer a
  · exact ⟨Session.answers_bare .setBreak ht hblank hstart,
      Session.answers_bare .memory ht hblank hstart⟩
  · exact ⟨Session.answers_comment .setBreak ht hblank hstart,
      Session.answers_comment .memory ht hblank hstart⟩
  · exact Session.answers_quoted .setBreak ht hblank
  · exact Session.answers_quoted .memory ht hblank

/-- A breakpoint at a hexadecimal number. -/
theorem answers_number_hex :
    let s := Session.start (.ofImage { files := .empty } [0x0b]) {}
    s.halted = false ∧ Argument.ofText "$40" = .ok (.number 64) ∧
      (∀ c ∈ "$40".toList, isBlank c = false) ∧
      s.Answers "break $40" ({ s with last := some (.setBreak (.number 64)) }.setBreak 64) := by
  intro s
  have ht : Argument.ofText "$40" = .ok (.number 64) := by rfl
  have hblank : ∀ c ∈ "$40".toList, isBlank c = false := by simp [isBlank]
  obtain ⟨-, -, htyped, -⟩ :=
    answers_number (s := s) (v := 64) rfl ht hblank (by decide) (by decide)
  exact ⟨rfl, ht, hblank, (htyped (by decide)).1⟩

/-- A breakpoint at address 64 that is set in base sixteen, and not in base
ten. -/
theorem break_misses_decimal :
    let s := Session.start (.ofImage { files := .empty } [0x0b]) {}
    (Argument.ofText "#64").toOption = some (.number 64) ∧
      addLine "" "break #64" = .complete "break #64" ∧
      (s.hear Command.ofLine "break #64").session.breakpoints = [] ∧
      (s.hear Command.ofLine "break $40").session.breakpoints = [64] := by
  decide +kernel

end StackRisc.Debugger
