import WordMachine.Debugger.Session
import WordMachine.Word.Value

namespace WordMachine.Debugger

/-- In steps of three from the address on, instructions end inside the memory up to one whose end
does not fit into 64 bits. -/
def Overflows (capacity address count : Nat) : Prop :=
  ∃ index < count, (∀ earlier < index, address + 3 * earlier + 3 ≤ capacity) ∧
    2 ^ 64 ≤ address + 3 * index + 3

/-- The number of lines from the address on whose instructions end inside the memory. -/
def lineCount (capacity address count : Nat) : Nat := min count ((capacity - address) / 3)

section Counting

variable {capacity address count : Nat}

/-- An instruction inside the memory has a line. -/
theorem lineCount_of_fits (fits : address + 3 ≤ capacity) :
    lineCount capacity address (count + 1) = lineCount capacity (address + 3) count + 1 := by
  unfold lineCount
  omega

/-- Behind the end of the memory there are no lines. -/
theorem lineCount_of_not_fits (beyond : ¬ address + 3 ≤ capacity) :
    lineCount capacity address count = 0 := by
  unfold lineCount
  omega

/-- Every line ends inside the memory. -/
theorem ends_inside_of_lt {index : Nat} (listed : index < lineCount capacity address count) :
    address + 3 * index + 3 ≤ capacity := by
  unfold lineCount at listed
  omega

/-- A window overflows at its first instruction or behind it. -/
theorem overflows_succ_iff :
    Overflows capacity address (count + 1) ↔
      2 ^ 64 ≤ address + 3 ∨ (address + 3 ≤ capacity ∧ Overflows capacity (address + 3) count) := by
  constructor
  · rintro ⟨index, within, inside, beyond⟩
    cases index with
    | zero => exact Or.inl beyond
    | succ index =>
        refine Or.inr ⟨inside 0 (Nat.succ_pos index), index, Nat.lt_of_succ_lt_succ within, ?_, ?_⟩
        · intro earlier less
          have later := inside (earlier + 1) (Nat.succ_lt_succ less)
          omega
        · omega
  · rintro (beyond | ⟨fits, index, within, inside, beyond⟩)
    · exact ⟨0, Nat.succ_pos count, by simp, beyond⟩
    · refine ⟨index + 1, Nat.succ_lt_succ within, ?_, by omega⟩
      intro earlier less
      cases earlier with
      | zero => exact fits
      | succ earlier =>
          have before := inside earlier (Nat.lt_of_succ_lt_succ less)
          omega

/-- A window that overflows starts or ends among the last three addresses. -/
theorem Overflows.near_top (overflows : Overflows capacity address count) :
    2 ^ 64 ≤ address + 3 ∨ 2 ^ 64 ≤ capacity + 3 := by
  obtain ⟨index, _, inside, beyond⟩ := overflows
  cases index with
  | zero => exact Or.inl beyond
  | succ index =>
      have last := inside index (Nat.lt_succ_self index)
      right
      omega

/-- The instructions of a window that does not overflow have addresses of 64 bits. -/
theorem end_lt_of_not_overflows (bounded : ¬ Overflows capacity address count) {index : Nat}
    (listed : index < lineCount capacity address count) : address + 3 * index + 3 < 2 ^ 64 := by
  refine Nat.lt_of_not_le fun beyond => bounded ⟨index, ?_, ?_, beyond⟩
  · exact listed.trans_le (Nat.min_le_left _ _)
  · intro earlier less
    exact ends_inside_of_lt (less.trans listed)

end Counting

namespace Session

variable {session : Session} {address count : Nat}

section Lines

theorem nextAddress?_of_lt (low : address + 3 < 2 ^ 64) :
    nextAddress? address = some (address + 3) := by
  rw [← valueCount_eq] at low
  exact if_pos low

theorem nextAddress?_of_ge (high : 2 ^ 64 ≤ address + 3) : nextAddress? address = none := by
  rw [← valueCount_eq] at high
  exact if_neg (Nat.not_lt.mpr high)

/-- A line whose end overflows spoils the window. -/
theorem codeLinesFrom?_of_ge (high : 2 ^ 64 ≤ address + 3) :
    session.codeLinesFrom? address (count + 1) = none := by
  rw [codeLinesFrom?, nextAddress?_of_ge high]
  rfl

/-- A line inside the memory is followed by the lines behind it. -/
theorem codeLinesFrom?_of_fits (low : address + 3 < 2 ^ 64)
    (fits : address + 3 ≤ session.machine.ram.capacity) :
    session.codeLinesFrom? address (count + 1) =
      (session.codeLinesFrom? (address + 3) count).map (session.codeLine address :: ·) := by
  rw [codeLinesFrom?, nextAddress?_of_lt low, Option.map_eq_bind]
  exact if_pos fits

/-- The first line that leaves the memory ends the window. -/
theorem codeLinesFrom?_of_not_fits (low : address + 3 < 2 ^ 64)
    (beyond : ¬ address + 3 ≤ session.machine.ram.capacity) :
    session.codeLinesFrom? address (count + 1) = some [] := by
  rw [codeLinesFrom?, nextAddress?_of_lt low]
  exact if_neg beyond

/-- There are no lines when the end of an instruction overflows. -/
theorem codeLinesFrom?_eq_none
    (overflows : Overflows session.machine.ram.capacity address count) :
    session.codeLinesFrom? address count = none := by
  induction count generalizing address with
  | zero =>
      obtain ⟨_, within, _⟩ := overflows
      cases within
  | succ count ih =>
      rcases Nat.lt_or_ge (address + 3) (2 ^ 64) with low | high
      · obtain ⟨fits, later⟩ :=
          (overflows_succ_iff.mp overflows).resolve_left (Nat.not_le.mpr low)
        rw [codeLinesFrom?_of_fits low fits, ih later]
        rfl
      · exact codeLinesFrom?_of_ge high

/-- Otherwise the lines stand for the addresses in steps of three whose instructions end inside the
memory. -/
theorem codeLinesFrom?_eq_some
    (bounded : ¬ Overflows session.machine.ram.capacity address count) :
    session.codeLinesFrom? address count =
      some ((List.range (lineCount session.machine.ram.capacity address count)).map
        fun index => session.codeLine (address + 3 * index)) := by
  induction count generalizing address with
  | zero =>
      rw [lineCount, Nat.zero_min]
      rfl
  | succ count ih =>
      obtain ⟨low, later⟩ := not_or.mp (mt overflows_succ_iff.mpr bounded)
      by_cases fits : address + 3 ≤ session.machine.ram.capacity
      · rw [codeLinesFrom?_of_fits (Nat.lt_of_not_le low) fits,
          ih fun overflows => later ⟨fits, overflows⟩, lineCount_of_fits fits,
          List.range_succ_eq_map, List.map_cons, List.map_map, Option.map_some]
        congr 2
        apply List.map_congr_left
        intro index _
        rw [Function.comp_apply, Nat.add_assoc, Nat.succ_eq_add_one, Nat.mul_succ, Nat.add_comm 3]
      · rw [codeLinesFrom?_of_not_fits (Nat.lt_of_not_le low) fits, lineCount_of_not_fits fits]
        rfl

end Lines

section Window

/-- At most half of the lines stand before the program counter. -/
def linesBefore (session : Session) (count : Nat) : Nat := min (count / 2) (session.address / 3)

def firstAddress (session : Session) (count : Nat) : Nat :=
  session.address - 3 * session.linesBefore count

theorem codeLines?_eq (session : Session) (count : Nat) :
    session.codeLines? count = session.codeLinesFrom? (session.firstAddress count) count := by
  rw [codeLines?, firstAddress, linesBefore, wordsPerInstruction, Nat.mul_comm 3]

/-- The lines before the program counter lead up to it. -/
theorem firstAddress_add (session : Session) (count : Nat) :
    session.firstAddress count + 3 * session.linesBefore count = session.address := by
  unfold firstAddress linesBefore
  omega

theorem linesBefore_lt (session : Session) (positive : 1 ≤ count) :
    session.linesBefore count < count := by
  unfold linesBefore
  omega

/-- The end of an instruction that the window looks at does not fit into 64 bits. -/
def WindowOverflows (session : Session) (count : Nat) : Prop :=
  Overflows session.machine.ram.capacity (session.firstAddress count) count

/-- A window overflows only next to the largest number of 64 bits. -/
theorem WindowOverflows.near_top (overflows : session.WindowOverflows count) :
    2 ^ 64 ≤ session.address + 3 ∨ 2 ^ 64 ≤ session.machine.ram.capacity + 3 := by
  have here := session.firstAddress_add count
  refine Overflows.near_top overflows |>.imp_left fun start => start.trans ?_
  omega

/-- The lines that the window shows unless it overflows. -/
def windowLines (session : Session) (count : Nat) : List CodeLine :=
  (List.range (lineCount session.machine.ram.capacity (session.firstAddress count) count)).map
    fun index => session.codeLine (session.firstAddress count + 3 * index)

/-- The window is returned exactly if it does not overflow. -/
theorem codeLines?_eq_some_iff {lines : List CodeLine} :
    session.codeLines? count = some lines ↔
      ¬ session.WindowOverflows count ∧ lines = session.windowLines count := by
  by_cases overflows : session.WindowOverflows count
  · rw [codeLines?_eq, codeLinesFrom?_eq_none overflows]
    simp [overflows]
  · rw [codeLines?_eq, codeLinesFrom?_eq_some overflows]
    simp [overflows, windowLines, eq_comm]

/-- No window is returned exactly if its addresses overflow. -/
theorem codeLines?_eq_none_iff : session.codeLines? count = none ↔ session.WindowOverflows count := by
  rw [Option.eq_none_iff_forall_ne_some]
  simp [codeLines?_eq_some_iff]

/-- The line at each position shows the instruction that lies so many steps behind the first
address. -/
theorem getElem?_windowLines_eq_some_iff {position : Nat} {line : CodeLine} :
    (session.windowLines count)[position]? = some line ↔
      position < lineCount session.machine.ram.capacity (session.firstAddress count) count ∧
        session.codeLine (session.firstAddress count + 3 * position) = line := by
  rw [windowLines, List.getElem?_map, Option.map_eq_some_iff]
  constructor
  · rintro ⟨index, placed, rfl⟩
    obtain ⟨inside, same⟩ := List.getElem?_eq_some_iff.mp placed
    rw [List.length_range] at inside
    rw [List.getElem_range] at same
    exact ⟨inside, by rw [same]⟩
  · rintro ⟨inside, same⟩
    exact ⟨position, List.getElem?_range inside, same⟩

/-- Every line shows the instruction at its address. -/
theorem eq_codeLine_of_mem {line : CodeLine} (listed : line ∈ session.windowLines count) :
    line = session.codeLine line.address := by
  obtain ⟨_, _, rfl⟩ := List.mem_map.mp listed
  rfl

/-- The instruction at the program counter has a line if it lies in the memory. -/
theorem codeLine_mem_windowLines (positive : 1 ≤ count)
    (fits : session.address + 3 ≤ session.machine.ram.capacity) :
    session.codeLine session.address ∈ session.windowLines count := by
  have here := session.firstAddress_add count
  refine List.mem_map.mpr ⟨session.linesBefore count, List.mem_range.mpr ?_, by rw [here]⟩
  have before := session.linesBefore_lt positive
  unfold lineCount
  omega

section Positions

variable {position : Nat} {line : CodeLine}
  (placed : (session.windowLines count)[position]? = some line)

include placed

/-- The program counter stands behind the lines before it. -/
theorem address_eq_iff : line.address = session.address ↔ position = session.linesBefore count := by
  have here := session.firstAddress_add count
  obtain ⟨_, rfl⟩ := getElem?_windowLines_eq_some_iff.mp placed
  change session.firstAddress count + 3 * position = session.address ↔ _
  omega

/-- The line of the program counter is marked. -/
theorem isCurrent_iff : line.isCurrent = true ↔ line.address = session.address := by
  obtain ⟨_, rfl⟩ := getElem?_windowLines_eq_some_iff.mp placed
  exact beq_iff_eq

theorem ends_inside : line.address + 3 ≤ session.machine.ram.capacity := by
  obtain ⟨within, rfl⟩ := getElem?_windowLines_eq_some_iff.mp placed
  exact ends_inside_of_lt within

/-- The lines of a window that does not overflow end below the largest number of 64 bits. -/
theorem end_lt (bounded : ¬ session.WindowOverflows count) : line.address + 3 < 2 ^ 64 := by
  obtain ⟨within, rfl⟩ := getElem?_windowLines_eq_some_iff.mp placed
  exact end_lt_of_not_overflows bounded within

end Positions

/-- The line at this position stands for the program counter, and no other line is marked. -/
def ShowsCurrentAt (session : Session) (lines : List CodeLine) (position : Nat) : Prop :=
  ∃ line, lines[position]? = some line ∧ line.address = session.address ∧
    ∀ other entry, lines[other]? = some entry → (entry.isCurrent = true ↔ other = position)

/-- The lines show the instructions inside the memory in steps of three, with the current one
marked. -/
structure ShowsWindow (session : Session) (count : Nat) (lines : List CodeLine) : Prop where
  length_le : lines.length ≤ count
  rising : lines.IsChain fun line next => next.address = line.address + 3
  inside : ∀ line ∈ lines,
    line.address + 3 < 2 ^ 64 ∧ line.address + 3 ≤ session.machine.ram.capacity
  current_iff : (∃ position, session.ShowsCurrentAt lines position) ↔
    1 ≤ count ∧ session.address + 3 ≤ session.machine.ram.capacity
  position_eq : ∀ position line, lines[position]? = some line →
    line.address = session.address → position = min (count / 2) (session.address / 3)

theorem length_windowLines_le (session : Session) (count : Nat) :
    (session.windowLines count).length ≤ count := by
  rw [windowLines, List.length_map, List.length_range]
  exact Nat.min_le_left _ _

/-- The addresses rise in steps of three. -/
theorem rising_windowLines (session : Session) (count : Nat) :
    (session.windowLines count).IsChain fun line next => next.address = line.address + 3 := by
  rw [windowLines, List.isChain_map, List.isChain_range]
  intro index _
  change session.firstAddress count + 3 * (index + 1) = session.firstAddress count + 3 * index + 3
  omega

/-- The line of an instruction at the program counter is the only marked one. -/
theorem showsCurrentAt {position : Nat} {line : CodeLine}
    (placed : (session.windowLines count)[position]? = some line)
    (here : line.address = session.address) :
    session.ShowsCurrentAt (session.windowLines count) position := by
  refine ⟨line, placed, here, ?_⟩
  intro other entry found
  rw [isCurrent_iff found, address_eq_iff found, (address_eq_iff placed).mp here]

/-- The lines of a window that does not overflow are the expected ones. -/
theorem showsWindow_windowLines (bounded : ¬ session.WindowOverflows count) :
    session.ShowsWindow count (session.windowLines count) := by
  refine ⟨session.length_windowLines_le count, session.rising_windowLines count, ?_, ⟨?_, ?_⟩,
    fun position line placed => (address_eq_iff placed).mp⟩
  · intro line listed
    obtain ⟨position, placed⟩ := List.mem_iff_getElem?.mp listed
    exact ⟨end_lt placed bounded, ends_inside placed⟩
  · rintro ⟨position, line, placed, here, _⟩
    have within := (getElem?_windowLines_eq_some_iff.mp placed).1
    have ends := ends_inside placed
    rw [here] at ends
    exact ⟨(Nat.zero_lt_of_lt within).trans_le (Nat.min_le_left _ _), ends⟩
  · rintro ⟨positive, fits⟩
    obtain ⟨position, placed⟩ :=
      List.mem_iff_getElem?.mp (codeLine_mem_windowLines positive fits)
    exact ⟨position, showsCurrentAt placed rfl⟩

end Window

/-- The instructions around the program counter are shown unless an address overflows. -/
theorem showsWindow_iff (session : Session) (count : Nat) :
    ((∃ lines, session.codeLines? count = some lines ∧ session.ShowsWindow count lines) ↔
      ¬ session.WindowOverflows count) ∧
    (session.codeLines? count = none ↔ session.WindowOverflows count) ∧
    (session.WindowOverflows count →
      2 ^ 64 ≤ session.address + 3 ∨ 2 ^ 64 ≤ session.machine.ram.capacity + 3) := by
  refine ⟨⟨?_, ?_⟩, codeLines?_eq_none_iff, WindowOverflows.near_top⟩
  · rintro ⟨lines, returned, _⟩
    exact (codeLines?_eq_some_iff.mp returned).1
  · intro bounded
    exact ⟨_, codeLines?_eq_some_iff.mpr ⟨bounded, rfl⟩, showsWindow_windowLines bounded⟩

/-- The window at the second instruction of three ends with the memory. -/
theorem showsWindow_iff_second_instruction :
    ∃ session : Session,
      (create (assemble "NOP\nOUT %0\nHLT" 8).program ⟨8, 4, 10⟩ 0).map step = .ok session ∧
      ∃ lines, session.codeLines? 5 = some lines ∧ session.ShowsWindow 5 lines ∧
        lines =
          [⟨0, "NOP".toList, false⟩, ⟨3, "OUT %0".toList, true⟩, ⟨6, "HLT".toList, false⟩] := by
  have shown (session : Session) (lines : List CodeLine)
      (low : ¬ (2 ^ 64 ≤ session.address + 3 ∨ 2 ^ 64 ≤ session.machine.ram.capacity + 3))
      (returned : session.codeLines? 5 = some lines) : session.ShowsWindow 5 lines := by
    obtain ⟨iff_bounded, _, near⟩ := showsWindow_iff session 5
    obtain ⟨same, found, shows⟩ := iff_bounded.mpr fun overflows => low (near overflows)
    rw [returned, Option.some_inj] at found
    exact found ▸ shows
  have returned :
      ((create (assemble "NOP\nOUT %0\nHLT" 8).program ⟨8, 4, 10⟩ 0).map step).toOption.bind
          (codeLines? · 5) =
        some [⟨0, "NOP".toList, false⟩, ⟨3, "OUT %0".toList, true⟩, ⟨6, "HLT".toList, false⟩] := by
    decide +kernel
  exact ⟨_, rfl, _, returned, shown _ _ (by decide +kernel) returned, rfl⟩

/-- At the last address of 64 bits no window is returned, although one without lines would be right.
-/
theorem no_window_at_last_address :
    ∃ session : Session,
      (create (assemble "JMP %18446744073709551615" 64).program ⟨64, 4, 256⟩ 0).map step =
        .ok session ∧
      session.codeLines? 1 = none ∧ session.ShowsWindow 1 [] := by
  have emptyShows (session : Session)
      (far : ¬ session.address + 3 ≤ session.machine.ram.capacity) :
      session.ShowsWindow 1 [] :=
    ⟨Nat.zero_le 1, List.IsChain.nil, by simp, by simp [ShowsCurrentAt, far], by simp⟩
  exact ⟨_, rfl, by decide +kernel, emptyShows _ (by decide +kernel)⟩

end Session

end WordMachine.Debugger
