import FlowWitness.Proofs.Exploration.Naming
import FlowWitness.Proofs.Smt.Legibility

/-!
# Symbols of a search never collide

A name passes through four layers before a solver sees it: name and number
make a stem, stem and version a name, the name is escaped, and it may be put
between bars.  Each layer can be read back, so the symbol of a version tells
the number of the variable and the version, and the symbol of a marker tells
the block and the visit, whatever the variables are called.

That bars do not count is how symbols are read: every one of these is read as
a single atom, which is what stands between the bars.
-/

namespace FlowWitness.Exploration

open FlowWitness.Graph
open FlowWitness.Program
open FlowWitness.Smt

/-- The text is read as one symbol, for which bars do not count. -/
def ReadsAsSymbol (text : String) : Prop :=
  SExpr.read text = .ok (.atom (String.ofList (unbarred text)))

/-- Whatever it is called, a constant is read as one symbol. -/
theorem readsAsSymbol_constant (name : String) (sort : SmtSort) :
    ReadsAsSymbol (Term.constant name sort).text := by
  have declared : (FunctionSymbol.constant name sort).isBuiltin = false := rfl
  rw [ReadsAsSymbol, unbarred_text_constant]
  exact (legible_declared declared).read

/-- The symbol of a version tells the variable's number and the version. -/
theorem number_and_version_of_symbol
    {first second : Variable} {firstKey secondKey : SymbolKey}
    (firstFound : keyOf first = .ok firstKey)
    (secondFound : keyOf second = .ok secondKey)
    {firstVersion secondVersion : Nat}
    (same : unbarred (firstKey.versioned firstVersion).text =
      unbarred (secondKey.versioned secondVersion).text) :
    first.id = second.id ∧ firstVersion = secondVersion := by
  have names : firstKey.versionName firstVersion =
      secondKey.versionName secondVersion := name_eq_of_unbarred_text_eq same
  rcases SymbolKey.versionName_injective names with ⟨stems, versions⟩
  rw [(keyOf_eq_ok firstFound).1, (keyOf_eq_ok secondFound).1] at stems
  exact ⟨id_eq_of_stem_eq stems, versions⟩

/-- The symbol of a marker tells the place of the block and the visit. -/
theorem place_and_visit_of_symbol
    {first second : BlockId} {firstVisit secondVisit : Nat}
    (same : unbarred (reachMarker first firstVisit).text =
      unbarred (reachMarker second secondVisit).text) :
    first.index = second.index ∧ firstVisit = secondVisit := by
  have names : markerName first firstVisit =
      markerName second secondVisit := name_eq_of_unbarred_text_eq same
  exact markerName_injective names

/--
No two versions, of one variable or of two, no two markers of one graph, and
no version and marker are written as the same symbol, even if bars around a
symbol do not count.  And each of them is read as one symbol, without the bars.
-/
theorem symbols_never_collide :
    (∀ (first second : Variable) (firstKey secondKey : SymbolKey)
        (firstVersion secondVersion : Nat),
      keyOf first = .ok firstKey → keyOf second = .ok secondKey →
      first.id ≠ second.id ∨ firstVersion ≠ secondVersion →
      unbarred (firstKey.versioned firstVersion).text ≠
        unbarred (secondKey.versioned secondVersion).text) ∧
    (∀ (first second : BlockId) (firstVisit secondVisit : Nat),
      first.graph = second.graph →
      first ≠ second ∨ firstVisit ≠ secondVisit →
      unbarred (reachMarker first firstVisit).text ≠
        unbarred (reachMarker second secondVisit).text) ∧
    (∀ (target : Variable) (key : SymbolKey) (version : Nat)
        (block : BlockId) (visit : Nat),
      keyOf target = .ok key →
      unbarred (key.versioned version).text ≠
        unbarred (reachMarker block visit).text) ∧
    (∀ (key : SymbolKey) (version : Nat),
      ReadsAsSymbol (key.versioned version).text) ∧
    (∀ (block : BlockId) (visit : Nat),
      ReadsAsSymbol (reachMarker block visit).text) := by
  refine ⟨?_, ?_, ?_, fun _ _ => readsAsSymbol_constant _ _,
    fun _ _ => readsAsSymbol_constant _ _⟩
  · intro first second firstKey secondKey firstVersion secondVersion firstFound
      secondFound different same
    rcases number_and_version_of_symbol firstFound secondFound same with
      ⟨numbers, versions⟩
    rcases different with differ | differ
    · exact differ numbers
    · exact differ versions
  · rintro ⟨graph, first⟩ ⟨_, second⟩ firstVisit secondVisit rfl different same
    rcases place_and_visit_of_symbol same with ⟨places, visits⟩
    rcases different with differ | differ
    · exact differ (congrArg (BlockId.mk graph) places)
    · exact differ visits
  · intro target key version block visit _ same
    exact versionName_ne_markerName key version block visit
      (name_eq_of_unbarred_text_eq same)

/-- A variable whose name looks like a version of another one. -/
def lookalike : Variable := ⟨7, "x!3@0|", .boolean⟩

/-- A variable whose name looks like an escaped marker. -/
def impostor : Variable := ⟨3, "reach!b2#0%7C", .integer true 8⟩

/-- Names made to collide do not. -/
theorem lookalikes_never_collide :
    (keyOf lookalike = .ok ⟨"x!3@0|!7", .bool⟩ ∧
      keyOf impostor = .ok ⟨"reach!b2#0%7C!3", .bitVec 8⟩) ∧
    unbarred (SymbolKey.versioned ⟨"x!3@0|!7", .bool⟩ 0).text ≠
      unbarred (SymbolKey.versioned ⟨"reach!b2#0%7C!3", .bitVec 8⟩ 0).text ∧
    unbarred (SymbolKey.versioned ⟨"x!3@0|!7", .bool⟩ 1).text ≠
      unbarred (SymbolKey.versioned ⟨"x!3@0|!7", .bool⟩ 11).text ∧
    unbarred (reachMarker ⟨0, 2⟩ 1).text ≠
      unbarred (reachMarker ⟨0, 21⟩ 0).text ∧
    unbarred (SymbolKey.versioned ⟨"reach!b2#0%7C!3", .bitVec 8⟩ 0).text ≠
      unbarred (reachMarker ⟨0, 2⟩ 0).text := by
  have lookalikeFound : keyOf lookalike = .ok ⟨"x!3@0|!7", .bool⟩ := by
    decide
  have impostorFound :
      keyOf impostor = .ok ⟨"reach!b2#0%7C!3", .bitVec 8⟩ := by decide
  rcases symbols_never_collide with ⟨versions, markers, apart, _, _⟩
  exact ⟨⟨lookalikeFound, impostorFound⟩,
    versions _ _ _ _ _ _ lookalikeFound impostorFound (Or.inl (by decide)),
    versions _ _ _ _ _ _ lookalikeFound lookalikeFound (Or.inr (by decide)),
    markers _ _ _ _ rfl (Or.inl (by decide)),
    apart _ _ _ _ _ impostorFound⟩

end FlowWitness.Exploration
