import Stencil.Program.Lexer
import Stencil.Units

/-! What registering a piece of code does to the units of a table. -/

set_option autoImplicit false

namespace Stencil

def IsUnitName (name : String) : Prop :=
  ∃ tail, name.toList = '_' :: tail ∧ ∀ c ∈ tail, Program.isNamePart c

theorem isNamePart_of_mem_toDigits {base n : Nat} {c : Char} (two : 1 < base) (sixteen : base ≤ 16)
    (member : c ∈ Nat.toDigits base n) : Program.isNamePart c := by
  have digit : ∀ d < 16, Program.isNamePart (Nat.digitChar d) := by decide
  -- All digits but the last are those of a smaller number.
  induction n using Nat.strongRecOn with
  | ind n ih =>
    rw [Nat.toDigits_eq_if two] at member
    split at member
    · rw [List.mem_singleton.mp member]
      exact digit n (by omega)
    · rcases List.mem_append.mp member with high | low
      · exact ih (n / base) (Nat.div_lt_self (by omega) two) high
      · rw [List.mem_singleton.mp low]
        exact digit (n % base) (Nat.lt_of_lt_of_le (Nat.mod_lt n (by omega)) sixteen)

theorem isUnitName_unitName (kind : ReturnKind) (source : String) : IsUnitName (unitName kind source) := by
  refine ⟨(Checksum.hex (Checksum.ofText (kind.keyword ++ ":" ++ source))).toList, ?_, ?_⟩
  · rw [unitName, String.toList_append]
    rfl
  · intro c member
    simp only [Checksum.hex, String.toList_ofList, List.mem_append] at member
    rcases member with zero | digit
    · rw [List.eq_of_mem_replicate zero]
      rfl
    · exact isNamePart_of_mem_toDigits (by decide) (by decide) digit

namespace UnitTable

theorem isUnitName_nameFor (table : UnitTable) (kind : ReturnKind) (source : String) :
    IsUnitName (table.nameFor kind source) := by
  obtain ⟨tail, name, parts⟩ := isUnitName_unitName kind source
  unfold nameFor
  cases table.sharing with
  | dedupe => exact ⟨tail, name, parts⟩
  | perSite =>
    refine ⟨tail ++ '_' :: (toString table.units.length).toList, ?_, ?_⟩
    · rw [String.toList_append, String.toList_append, name]
      simp
    · intro c member
      rcases List.mem_append.mp member with checksum | place
      · exact parts c checksum
      · rcases List.mem_cons.mp place with rfl | digit
        · rfl
        · rw [Nat.toString_eq_repr, Nat.repr_eq_ofList_toDigits, String.toList_ofList] at digit
          exact isNamePart_of_mem_toDigits (by decide) (by decide) digit

theorem find?_getElem? {table : UnitTable} {kind : ReturnKind} {source : String} {handle : Nat}
    (found : table.find? kind source = some handle) :
    ∃ unit, table.units[handle]? = some unit ∧ unit.kind = kind ∧ unit.source = source := by
  obtain ⟨bound, is, _⟩ := List.findIdx?_eq_some_iff_getElem.1 found
  simp only [Bool.and_eq_true, decide_eq_true_eq] at is
  exact ⟨table.units[handle], List.getElem?_eq_getElem bound, is⟩

theorem getElem?_of_prefix {units later : List CodeUnit} (grown : units <+: later) {handle : Nat} {unit : CodeUnit}
    (found : units[handle]? = some unit) : later[handle]? = some unit := by
  obtain ⟨bound, same⟩ := List.getElem?_eq_some_iff.mp found
  rw [List.prefix_iff_getElem?.mp grown handle bound, same]

section
variable (table : UnitTable) (source : String) (kind : ReturnKind) (line : Nat)

theorem register_cases :
    (∃ handle, table.sharing = .dedupe ∧ table.find? kind (Text.trimText source) = some handle ∧
      table.register source kind line = (handle, table)) ∨
    ((table.sharing = .dedupe → table.find? kind (Text.trimText source) = none) ∧
      table.register source kind line =
        (table.units.length, table.append kind (Text.trimText source) line)) := by
  unfold register
  cases sharing : table.sharing with
  | perSite =>
    right
    exact ⟨fun shared => (by cases shared), rfl⟩
  | dedupe =>
    cases found : table.find? kind (Text.trimText source) with
    | some handle =>
      left
      exact ⟨handle, rfl, rfl, by simp only [found]⟩
    | none =>
      right
      exact ⟨fun _ => rfl, by simp only [found]⟩

theorem units_prefix_register : table.units <+: (table.register source kind line).2.units := by
  rcases table.register_cases source kind line with ⟨handle, _, _, same⟩ | ⟨_, same⟩
  · simpa only [same] using List.prefix_rfl
  · rw [same]
    exact List.prefix_append _ _

theorem register_getElem? :
    ∃ unit, (table.register source kind line).2.units[(table.register source kind line).1]? = some unit ∧
      unit.kind = kind ∧ unit.source = Text.trimText source := by
  rcases table.register_cases source kind line with ⟨handle, _, found, same⟩ | ⟨_, same⟩
  · rw [same]
    exact find?_getElem? found
  · rw [same]
    exact ⟨_, List.getElem?_concat_length, rfl, rfl⟩

end

def registerAll (table : UnitTable) : List (String × ReturnKind × Nat) → UnitTable
  | [] => table
  | (source, kind, line) :: rest => (table.register source kind line).2.registerAll rest

theorem registerAll_append (table : UnitTable) (calls more : List (String × ReturnKind × Nat)) :
    table.registerAll (calls ++ more) = (table.registerAll calls).registerAll more := by
  induction calls generalizing table with
  | nil => rfl
  | cons call rest ih => exact ih _

theorem units_prefix_registerAll (table : UnitTable) (calls : List (String × ReturnKind × Nat)) :
    table.units <+: (table.registerAll calls).units := by
  induction calls generalizing table with
  | nil => exact List.prefix_rfl
  | cons call rest ih => exact (table.units_prefix_register call.1 call.2.1 call.2.2).trans (ih _)

/-- The pieces of code in a table are those that it began with and those that have been registered. -/
theorem mem_registerAll_iff (table : UnitTable) (calls : List (String × ReturnKind × Nat)) {kind : ReturnKind}
    {source : String} :
    (∃ unit ∈ (table.registerAll calls).units, unit.kind = kind ∧ unit.source = source) ↔
      (∃ unit ∈ table.units, unit.kind = kind ∧ unit.source = source) ∨
        ∃ call ∈ calls, call.2.1 = kind ∧ Text.trimText call.1 = source := by
  induction calls generalizing table with
  | nil => simp [registerAll]
  | cons call rest ih =>
    obtain ⟨code, sort, line⟩ := call
    have one : (∃ unit ∈ (table.register code sort line).2.units, unit.kind = kind ∧ unit.source = source) ↔
        (∃ unit ∈ table.units, unit.kind = kind ∧ unit.source = source) ∨
          sort = kind ∧ Text.trimText code = source := by
      rcases table.register_cases code sort line with ⟨handle, _, found, same⟩ | ⟨_, same⟩
      · -- A piece of code that has been found is one of those that were there before.
        rw [same]
        refine ⟨.inl, Or.rec id ?_⟩
        rintro ⟨rfl, rfl⟩
        obtain ⟨unit, here, code⟩ := find?_getElem? found
        exact ⟨unit, List.mem_of_getElem? here, code⟩
      · simp [same, append, or_and_right, exists_or]
    rw [registerAll, ih, one, or_assoc]
    simp only [List.mem_cons, exists_eq_or_imp]

theorem isUnitName_register {table : UnitTable} (named : ∀ unit ∈ table.units, IsUnitName unit.name)
    (source : String) (kind : ReturnKind) (line : Nat) :
    ∀ unit ∈ (table.register source kind line).2.units, IsUnitName unit.name := by
  rcases table.register_cases source kind line with ⟨handle, _, _, same⟩ | ⟨_, same⟩
  · rw [same]
    exact named
  · rw [same]
    intro unit member
    rcases List.mem_append.mp member with old | new
    · exact named unit old
    · rw [List.mem_singleton.mp new]
      exact table.isUnitName_nameFor kind _

/-- Units get their names by registering, so that all of them are lexed as names. -/
theorem isUnitName_registerAll (modelType : String) (sharing : Sharing)
    (calls : List (String × ReturnKind × Nat)) :
    ∀ unit ∈ ((empty modelType sharing).registerAll calls).units, IsUnitName unit.name := by
  -- Over any table whose names are in order, since the table grows with every call.
  have run : ∀ table : UnitTable, (∀ unit ∈ table.units, IsUnitName unit.name) →
      ∀ unit ∈ (table.registerAll calls).units, IsUnitName unit.name := by
    induction calls with
    | nil => exact fun _ named => named
    | cons call rest ih =>
      intro table named
      exact ih _ (isUnitName_register named call.1 call.2.1 call.2.2)
  exact run (empty modelType sharing) (by simp [empty])

end Stencil.UnitTable
