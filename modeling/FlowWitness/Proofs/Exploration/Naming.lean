import FlowWitness.Proofs.Exploration.EncodingMeaning
import FlowWitness.Proofs.Graph.Execution
import Mathlib.Data.List.TakeWhile

/-!
# Names of symbols

Every name that a search hands to a solver is a text, a mark and a number:
`x` and `7` make the stem `x!7`, a stem and `3` the version `x!7@3`, and a
block and `0` the marker `reach!b2#0`.  No digit is a mark, so the number is
what follows the last mark, and reading a name back there recovers both parts
whatever the text holds.  Two versions or two markers therefore never share a
name, and no version shares one with a marker.
-/

namespace FlowWitness.Exploration

open FlowWitness.Graph
open FlowWitness.Program
open FlowWitness.Smt

/-! ## Texts with a number -/

/-- The text before the last mark of a name, and the number after it. -/
def readNumbered? (mark : Char) (name : String) : Option (String × Nat) :=
  match name.toList.reverse.dropWhile (fun letter => letter != mark) with
  | [] => none
  | _ :: text =>
    some (String.ofList text.reverse, Nat.ofDigitChars 10
      (name.toList.reverse.takeWhile (fun letter => letter != mark)).reverse 0)

theorem not_mem_digits
    {mark : Char} (notDigit : mark.isDigit = false) (number : Nat) :
    mark ∉ Nat.toDigits 10 number := by
  intro member
  have digit := Nat.isDigit_of_mem_toDigits (by decide) (by decide) member
  simp [notDigit] at digit

/-- A text with a mark and a number reads back as both. -/
theorem readNumbered?_of_toList
    {mark : Char} (notDigit : mark.isDigit = false)
    {name text : String} {number : Nat}
    (shape : name.toList = text.toList ++ mark :: Nat.toDigits 10 number) :
    readNumbered? mark name = some (text, number) := by
  have digits : ∀ letter ∈ (Nat.toDigits 10 number).reverse,
      (letter != mark) = true := by
    intro letter member
    rw [List.mem_reverse] at member
    simp only [bne_iff_ne]
    rintro rfl
    exact not_mem_digits notDigit number member
  have reversed : name.toList.reverse =
      (Nat.toDigits 10 number).reverse ++ mark :: text.toList.reverse := by
    simp [shape]
  simp only [readNumbered?, reversed, List.dropWhile_append_of_pos digits,
    List.takeWhile_append_of_pos digits]
  simp

theorem readNumbered?_eq_none
    {mark : Char} {name : String} (absent : mark ∉ name.toList) :
    readNumbered? mark name = none := by
  have dropped :
      name.toList.reverse.dropWhile (fun letter => letter != mark) = [] := by
    rw [List.dropWhile_eq_nil_iff]
    intro letter member
    simp only [bne_iff_ne]
    rintro rfl
    exact absent (List.mem_reverse.mp member)
  rw [readNumbered?, dropped]

/-! ## Stems -/

theorem readNumbered?_stem (target : Variable) :
    readNumbered? '!' target.stem = some (target.name, target.id) :=
  readNumbered?_of_toList rfl (by simp [Variable.stem])

/-- Variables with the same stem have the same number. -/
theorem id_eq_of_stem_eq
    {first second : Variable} (same : first.stem = second.stem) :
    first.id = second.id := by
  have readings := readNumbered?_stem first
  rw [same, readNumbered?_stem second] at readings
  simp only [Option.some.injEq, Prod.mk.injEq] at readings
  exact readings.2.symm

/-- In a well-numbered graph a stem belongs to one variable. -/
theorem eq_of_stem_eq
    {graph : FlowGraph} (wellNumbered : graph.WellNumbered)
    {first second : Variable}
    (firstMember : first ∈ graph.mentioned)
    (secondMember : second ∈ graph.mentioned)
    (same : first.stem = second.stem) :
    first = second :=
  wellNumbered first firstMember second secondMember
    (by simp [Variable.same, id_eq_of_stem_eq same])

/-! ## Versions -/

theorem readNumbered?_versionName (key : SymbolKey) (version : Nat) :
    readNumbered? '@' (key.versionName version) = some (key.name, version) :=
  readNumbered?_of_toList rfl (by simp [SymbolKey.versionName])

theorem SymbolKey.versionName_injective
    {first second : SymbolKey} {firstVersion secondVersion : Nat}
    (same : first.versionName firstVersion = second.versionName secondVersion) :
    first.name = second.name ∧ firstVersion = secondVersion := by
  have readings := readNumbered?_versionName first firstVersion
  rw [same, readNumbered?_versionName] at readings
  simp only [Option.some.injEq, Prod.mk.injEq] at readings
  exact ⟨readings.1.symm, readings.2.symm⟩

/-! ## Markers -/

/-- The name of the marker of a visit. -/
def markerName (block : BlockId) (visit : Nat) : String :=
  "reach!" ++ block.text ++ "#" ++ toString visit

theorem reachMarker_eq (block : BlockId) (visit : Nat) :
    reachMarker block visit = .constant (markerName block visit) .bool :=
  rfl

theorem isCondition_reachMarker (block : BlockId) (visit : Nat) :
    (reachMarker block visit).IsCondition :=
  Term.isCondition_constant _

theorem satisfies_reachMarker
    {valuation : Valuation} {block : BlockId} {visit : Nat} :
    valuation.Satisfies (reachMarker block visit) ↔
      valuation.truth (markerName block visit) = true := by
  simp [Valuation.Satisfies, reachMarker_eq, Valuation.read]

theorem readNumbered?_markerName (block : BlockId) (visit : Nat) :
    readNumbered? '#' (markerName block visit) =
      some ("reach!" ++ block.text, visit) :=
  readNumbered?_of_toList rfl (by simp [markerName])

theorem readNumbered?_version_markerName (block : BlockId) (visit : Nat) :
    readNumbered? '@' (markerName block visit) = none := by
  apply readNumbered?_eq_none
  simp [markerName, BlockId.text, not_mem_digits]

theorem index_eq_of_text_eq
    {first second : BlockId} (same : first.text = second.text) :
    first.index = second.index := by
  have lists := congrArg String.toList same
  simp only [BlockId.text, String.toList_append] at lists
  have numbers := congrArg (fun digits => Nat.ofDigitChars 10 digits 0)
    (List.append_cancel_left lists)
  simpa using numbers

/-- A marker belongs to one visit of one place. -/
theorem markerName_injective
    {first second : BlockId} {firstVisit secondVisit : Nat}
    (same : markerName first firstVisit = markerName second secondVisit) :
    first.index = second.index ∧ firstVisit = secondVisit := by
  have readings := readNumbered?_markerName first firstVisit
  rw [same, readNumbered?_markerName] at readings
  simp only [Option.some.injEq, Prod.mk.injEq] at readings
  rcases readings with ⟨texts, visits⟩
  have blocks : second.text = first.text := by
    have lists := congrArg String.toList texts
    simp only [String.toList_append] at lists
    exact String.toList_inj.mp (List.append_cancel_left lists)
  exact ⟨(index_eq_of_text_eq blocks).symm, visits.symm⟩

/-- In one graph a marker belongs to one visit of one block. -/
theorem reachMarker_injective
    {first second : BlockId} (graphs : first.graph = second.graph)
    {firstVisit secondVisit : Nat}
    (same : reachMarker first firstVisit = reachMarker second secondVisit) :
    first = second ∧ firstVisit = secondVisit := by
  have names : markerName first firstVisit = markerName second secondVisit := by
    simpa [reachMarker_eq, Term.constant, FunctionSymbol.constant] using same
  rcases markerName_injective names with ⟨places, visits⟩
  rcases first with ⟨firstGraph, firstIndex⟩
  rcases second with ⟨secondGraph, secondIndex⟩
  exact ⟨by rw [BlockId.mk.injEq]; exact ⟨graphs, places⟩, visits⟩

theorem versionName_ne_markerName
    (key : SymbolKey) (version : Nat) (block : BlockId) (visit : Nat) :
    key.versionName version ≠ markerName block visit := by
  intro same
  have reading := readNumbered?_versionName key version
  rw [same, readNumbered?_version_markerName] at reading
  simp at reading

end FlowWitness.Exploration
