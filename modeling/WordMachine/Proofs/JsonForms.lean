import WordMachine.Json.Forms
import WordMachine.Proofs.JsonText
import WordMachine.Proofs.ResetHistories
import WordMachine.Proofs.SignedCodec

namespace WordMachine

namespace Json

section Values

/-- A list is read item by item. -/
theorem mapM_map {α β γ : Type} {write : α → β} {read : β → Option γ} {value : α → γ}
    {list : List α} (reads : ∀ item ∈ list, read (write item) = some (value item)) :
    (list.map write).mapM read = some (list.map value) := by
  induction list with
  | nil => rfl
  | cons item list ih =>
      have others := ih fun other inside => reads other (List.mem_cons_of_mem item inside)
      rw [List.map_cons, List.mapM_cons, reads item List.mem_cons_self, others]
      rfl

/-- A list is read back when each of its items is. -/
theorem mapM_map_inverse {α β : Type} {write : α → β} {read : β → Option α} {list : List α}
    (inverse : ∀ item ∈ list, read (write item) = some item) :
    (list.map write).mapM read = some list := by
  have read : (list.map write).mapM read = some (list.map id) := mapM_map inverse
  rwa [List.map_id] at read

/-- A number of 64 bits is read back. -/
theorem toNat?_ofNat {number : Nat} (fits : number < 2 ^ 64) :
    (ofNat number).toNat? = some number := by
  have read : wholeNumber? (Text.decimal number) = some (number : Int) :=
    wholeNumber?_integer (.ofNat number)
  have inside : (0 : Int) ≤ number ∧ (number : Int) < valueCount 64 := by
    rw [valueCount, Nat.one_shiftLeft]
    omega
  rw [ofNat, toNat?, read, Option.bind_eq_bind, Option.bind_some, if_pos inside,
    Int.toNat_natCast]

/-- A signed number of 64 bits is read back. -/
theorem toInt?_ofInt {number : Int} (signed : IsSigned 64 number) :
    (ofInt number).toInt? = some number := by
  have inside : -(valueCount 63 : Int) ≤ number ∧ number < valueCount 63 := by
    obtain ⟨least, below⟩ := signed
    rw [valueCount, Nat.one_shiftLeft]
    omega
  rw [ofInt, toInt?, wholeNumber?_integer, Option.bind_eq_bind, Option.bind_some, if_pos inside]

/-- A text is read back. -/
theorem toText?_ofText (text : String) : (ofText text).toText? = some text := by
  rw [ofText, toText?, unspell_spell]
  exact congrArg some String.ofList_toList

theorem toName?_ofText (text : String) : (ofText text).toName? = some text := by
  rw [ofText, toName?, unspell_spell]
  exact congrArg some String.ofList_toList

end Values

section Records

/-- A distinct key finds its own field. -/
theorem filter_key {fields : List (String × Json)} (distinct : (fields.map Prod.fst).Nodup)
    {field : String × Json} (inside : field ∈ fields) :
    fields.filter (·.1 == field.1) = [field] := by
  induction fields with
  | nil => exact absurd inside List.not_mem_nil
  | cons other fields ih =>
      rw [List.map_cons, List.nodup_cons] at distinct
      obtain ⟨fresh, distinct⟩ := distinct
      rcases List.mem_cons.mp inside with rfl | inside
      · have noOther : fields.filter (·.1 == field.1) = [] := by
          rw [List.filter_eq_nil_iff]
          intro other listed same
          exact fresh (List.mem_map.mpr ⟨other, listed, beq_iff_eq.mp same⟩)
        rw [List.filter_cons, if_pos (beq_self_eq_true _), noOther]
      · have differ : ¬ (other.1 == field.1) = true := fun same =>
          fresh (List.mem_map.mpr ⟨field, inside, (beq_iff_eq.mp same).symm⟩)
        rw [List.filter_cons, if_neg differ]
        exact ih distinct inside

/-- The fields of a record are found by their names. -/
theorem fields?_record {names : List String} {fields : List (String × Json)}
    (named : fields.map Prod.fst = names) (distinct : names.Nodup) :
    (record fields).fields? names = some (fields.map Prod.snd) := by
  subst named
  rw [record, fields?, mapM_map_inverse]
  · apply mapM_map
    intro field inside
    rw [filter_key distinct inside]
  · intro field _
    simp [unspell_spell]

end Records

section Plain

/-- A record of plain fields is plain. -/
theorem plain_record {fields : List (String × Json)} (all : ∀ field ∈ fields, Plain field.2) :
    Plain (record fields) := by
  refine .object ?_ ?_ <;> intro member inside <;>
    obtain ⟨field, listed, rfl⟩ := List.mem_map.mp inside
  · exact ⟨_, rfl⟩
  · exact all field listed

theorem plain_ofNat (number : Nat) : Plain (ofNat number) := .number (.ofNat number)

theorem plain_ofInt (number : Int) : Plain (ofInt number) := .number number

theorem plain_ofText (text : String) : Plain (ofText text) := .string text.toList

/-- A list of plain items is plain. -/
theorem plain_map {α : Type} {write : α → Json} (list : List α)
    (all : ∀ item ∈ list, Plain (write item)) : Plain (.array (list.map write)) := by
  refine .array fun json inside => ?_
  obtain ⟨item, listed, rfl⟩ := List.mem_map.mp inside
  exact all item listed

end Plain

/-- Both written forms of a value are read as the object that the value stands for. -/
def ReadsBack {α : Type} (json : Json) (read : Json → Option α) (object : α) : Prop :=
  (parse json.compact).bind read = some object ∧ (parse (json.pretty 0)).bind read = some object

/-- What reads a plain value reads both of its written forms. -/
theorem Plain.readsBack {α : Type} {json : Json} (plain : Plain json) {read : Json → Option α}
    {object : α} (reads : read json = some object) : json.ReadsBack read object := by
  obtain ⟨compact, pretty⟩ := plain.parse_forms 0
  constructor
  · rw [compact]
    exact reads
  · rw [pretty]
    exact reads

end Json

open Json

section Parts

theorem plain_bits (bits : List Bool) : Plain (.array (bits.map .bool)) :=
  plain_map bits fun value _ => .bool value

/-- Bits are read back. -/
theorem bitsOfJson?_map (bits : List Bool) : bitsOfJson? (.array (bits.map .bool)) = some bits :=
  mapM_map_inverse fun _ _ => rfl

/-- Words are plain. -/
theorem Word.plain_toJson (word : Word) : Plain word.toJson :=
  plain_record (by simp [plain_bits])

/-- Words are read back. -/
theorem Word.ofJson?_toJson (word : Word) : ofJson? word.toJson = some word := by
  have fields : word.toJson.fields? ["bits"] = some [.array (word.bits.map .bool)] :=
    fields?_record rfl (by decide)
  rw [ofJson?, fields]
  simp [bitsOfJson?_map]

theorem Flags.plain_toJson (flags : Flags) : Plain flags.toJson :=
  plain_record (by simp [Plain.bool])

/-- Flags are read back. -/
theorem Flags.ofJson?_toJson (flags : Flags) : ofJson? flags.toJson = some flags := by
  have fields : flags.toJson.fields? ["carry", "zero", "sign"] =
      some [.bool flags.carry, .bool flags.zero, .bool flags.sign] :=
    fields?_record rfl (by decide)
  rw [ofJson?, fields]
  rfl

theorem Phase.plain_toJson (phase : Phase) : Plain phase.toJson := plain_ofText phase.name

/-- Phases are read back. -/
theorem Phase.ofJson?_toJson (phase : Phase) : ofJson? phase.toJson = some phase := by
  rw [toJson, ofJson?, toName?_ofText]
  cases phase <;> rfl

theorem Architecture.plain_toJson (architecture : Architecture) : Plain architecture.toJson :=
  plain_record (by simp [plain_ofNat])

/-- The numbers of the architecture fit into 64 bits. -/
structure Architecture.Fits (architecture : Architecture) : Prop where
  bits : architecture.bits < 2 ^ 64
  registerCount : architecture.registerCount < 2 ^ 64
  ramCells : architecture.ramCells < 2 ^ 64

/-- Architectures of numbers of 64 bits are read back. -/
theorem Architecture.Fits.ofJson?_toJson {architecture : Architecture} (fits : architecture.Fits) :
    ofJson? architecture.toJson = some architecture := by
  have fields : architecture.toJson.fields? ["bits", "register_count", "ram_bytes"] =
      some [.ofNat architecture.bits, .ofNat architecture.registerCount,
        .ofNat architecture.ramCells] :=
    fields?_record rfl (by decide)
  rw [ofJson?, fields]
  simp [toNat?_ofNat fits.bits, toNat?_ofNat fits.registerCount, toNat?_ofNat fits.ramCells]

end Parts

section Stored

theorem Program.plain_toJson (program : Program) : Plain program.toJson :=
  plain_record (by simp [plain_ofNat, plain_bits])

/-- Programs are read back. -/
theorem Program.ofJson?_toJson {program : Program} (fits : program.width < 2 ^ 64) :
    ofJson? program.toJson = some program := by
  have fields : program.toJson.fields? ["width", "bits"] =
      some [.ofNat program.width, .array (program.bits.map .bool)] :=
    fields?_record rfl (by decide)
  rw [ofJson?, fields]
  simp [toNat?_ofNat fits, bitsOfJson?_map]

theorem Control.plain_toJson (control : Control) : Plain control.toJson :=
  plain_record (by simp [plain_ofNat, Word.plain_toJson, Flags.plain_toJson])

/-- Control registers are read back. -/
theorem Control.ofJson?_toJson {control : Control} (fits : control.width < 2 ^ 64) :
    ofJson? control.toJson = some control := by
  have fields : control.toJson.fields? ["pc", "ir", "flags", "width"] =
      some [control.pc.toJson, control.ir.toJson, control.flags.toJson, .ofNat control.width] :=
    fields?_record rfl (by decide)
  rw [ofJson?, fields]
  simp [toNat?_ofNat fits, Word.ofJson?_toJson, Flags.ofJson?_toJson]

/-- The JSON form of a memory whose cells are written in some order. -/
def Memory.toJsonWith (memory : Memory) (cells : List (Nat × Word)) : Json :=
  .record [("name", .ofText memory.name), ("width", .ofNat memory.width),
    ("capacity", .ofNat memory.capacity),
    ("cells", .object (cells.map fun (address, word) => (Text.decimal address, word.toJson)))]

/-- A memory is written with its cells in the order of their addresses. -/
theorem Memory.toJson_eq (memory : Memory) : memory.toJson = memory.toJsonWith memory.dump := rfl

/-- Memories are plain in any order of their cells. -/
theorem Memory.plain_toJsonWith (memory : Memory) (cells : List (Nat × Word)) :
    Plain (memory.toJsonWith cells) := by
  have plain : Plain (.object (cells.map fun (address, word) =>
      (Text.decimal address, word.toJson))) := by
    refine .object ?_ ?_ <;> intro member inside <;>
      obtain ⟨cell, _, rfl⟩ := List.mem_map.mp inside
    · exact ⟨_, (spell_decimal cell.1).symm⟩
    · exact cell.2.plain_toJson
  exact plain_record (by simp [plain_ofText, plain_ofNat, plain])

/-- The numbers of a memory fit into 64 bits. -/
structure Memory.Fits (memory : Memory) : Prop where
  width : memory.width < 2 ^ 64
  capacity : memory.capacity < 2 ^ 64
  addresses : ∀ address ∈ memory.cells, address < 2 ^ 64

/-- Cells are read back with their addresses. -/
theorem cellsOfJson?_map {cells : List (Nat × Word)} (fit : ∀ cell ∈ cells, cell.1 < 2 ^ 64) :
    cellsOfJson? (.object (cells.map fun (address, word) =>
      (Text.decimal address, word.toJson))) = some cells := by
  apply mapM_map_inverse
  intro cell inside
  have address : (Json.number (Text.decimal cell.1)).toNat? = some cell.1 :=
    toNat?_ofNat (fit cell inside)
  simp [address, Word.ofJson?_toJson]

theorem foldl_insert (entries : List (Nat × Word)) (cells : Std.ExtTreeMap Nat Word) :
    entries.foldl (fun cells (address, word) => cells.insert address word) cells =
      cells.insertMany entries := by
  induction entries generalizing cells with
  | nil => simp
  | cons entry entries ih => rw [List.foldl_cons, ih, Std.ExtTreeMap.insertMany_cons]

/-- A memory is read back from its cells in any order. -/
theorem Memory.Fits.ofJson?_toJsonWith {memory : Memory} (fits : memory.Fits)
    {cells : List (Nat × Word)} (order : cells.Perm memory.dump) :
    ofJson? (memory.toJsonWith cells) = some memory := by
  have fields : (memory.toJsonWith cells).fields? ["name", "width", "capacity", "cells"] =
      some [.ofText memory.name, .ofNat memory.width, .ofNat memory.capacity,
        .object (cells.map fun (address, word) => (Text.decimal address, word.toJson))] :=
    fields?_record rfl (by decide)
  have inside : ∀ cell ∈ cells, cell.1 < 2 ^ 64 := by
    intro cell listed
    have stored := mem_dump_iff.mp (order.mem_iff.mp listed)
    exact fits.addresses cell.1 (Std.ExtTreeMap.mem_iff_isSome_getElem?.mpr (by rw [stored]; rfl))
  rw [ofJson?, fields]
  simp [toText?_ofText, toNat?_ofNat fits.width, toNat?_ofNat fits.capacity,
    cellsOfJson?_map inside, foldl_insert, Memory.insertMany_of_perm order]

end Stored

section Snapshots

theorem RegisterSnapshot.plain_toJson (register : RegisterSnapshot) : Plain register.toJson :=
  plain_record (by simp [plain_ofNat, plain_ofText, plain_ofInt])

/-- The numbers of a register fit into 64 bits. -/
structure RegisterSnapshot.Fits (register : RegisterSnapshot) : Prop where
  index : register.index < 2 ^ 64
  unsigned : register.unsigned < 2 ^ 64
  signed : IsSigned 64 register.signed

/-- Registers of a snapshot are read back. -/
theorem RegisterSnapshot.Fits.ofJson?_toJson {register : RegisterSnapshot} (fits : register.Fits) :
    ofJson? register.toJson = some register := by
  have fields : register.toJson.fields? ["index", "bits", "unsigned", "signed"] =
      some [.ofNat register.index, .ofText register.bits, .ofNat register.unsigned,
        .ofInt register.signed] :=
    fields?_record rfl (by decide)
  rw [ofJson?, fields]
  simp [toNat?_ofNat fits.index, toText?_ofText, toNat?_ofNat fits.unsigned,
    toInt?_ofInt fits.signed]

/-- Snapshots are plain. -/
theorem Snapshot.plain_toJson (snapshot : Snapshot) : Plain snapshot.toJson := by
  have registers := plain_map snapshot.registers fun register _ => register.plain_toJson
  exact plain_record (by simp [plain_ofNat, Architecture.plain_toJson, Flags.plain_toJson,
    Phase.plain_toJson, registers])

/-- The numbers of a snapshot fit into 64 bits. -/
structure Snapshot.Fits (snapshot : Snapshot) : Prop where
  architecture : snapshot.architecture.Fits
  pc : snapshot.pc < 2 ^ 64
  ir : snapshot.ir < 2 ^ 64
  steps : snapshot.steps < 2 ^ 64
  registers : ∀ register ∈ snapshot.registers, register.Fits

/-- Snapshots are read back. -/
theorem Snapshot.Fits.ofJson?_toJson {snapshot : Snapshot} (fits : snapshot.Fits) :
    ofJson? snapshot.toJson = some snapshot := by
  have fields : snapshot.toJson.fields?
      ["arch", "pc", "ir", "flags", "state", "steps", "registers"] =
      some [snapshot.architecture.toJson, .ofNat snapshot.pc, .ofNat snapshot.ir,
        snapshot.flags.toJson, snapshot.phase.toJson, .ofNat snapshot.steps,
        .array (snapshot.registers.map RegisterSnapshot.toJson)] :=
    fields?_record rfl (by decide)
  have registers : (snapshot.registers.map RegisterSnapshot.toJson).mapM
      RegisterSnapshot.ofJson? = some snapshot.registers :=
    mapM_map_inverse fun register inside => (fits.registers register inside).ofJson?_toJson
  rw [ofJson?, fields]
  simp [fits.architecture.ofJson?_toJson, toNat?_ofNat fits.pc, toNat?_ofNat fits.ir,
    Flags.ofJson?_toJson, Phase.ofJson?_toJson, toNat?_ofNat fits.steps, toItems?, registers]

end Snapshots

end WordMachine
