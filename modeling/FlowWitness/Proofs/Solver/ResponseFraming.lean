import FlowWitness.Proofs.Smt.Completion
import FlowWitness.Solver.Session

/-!
# Responses arrive whole

A process writes responses one after another, each on lines of its own and
with blank lines between them.  Whatever line breaks a response holds, in
lists, strings or quoted symbols, each reading takes one response: it begins
where the last one ended, and stops at the first line after which nothing but
blanks is left of the response.
-/

namespace FlowWitness.Solver

open FlowWitness.Smt
open FlowWitness.Text

/-! ## Trimming -/

theorem trimBlanks_blanks_append
    {blanks : List Char}
    (blank : ∀ character ∈ blanks, isBlank character = true)
    (characters : List Char) :
    trimBlanks (blanks ++ characters) = trimBlanks characters := by
  rw [trimBlanks, List.dropWhile_append_of_pos blank, trimBlanks]

theorem trimBlanks_append_blanks
    {blanks : List Char}
    (blank : ∀ character ∈ blanks, isBlank character = true)
    (characters : List Char) :
    trimBlanks (characters ++ blanks) = trimBlanks characters := by
  induction characters with
  | nil => simpa using trimBlanks_blanks_append blank []
  | cons first rest induction =>
      by_cases leading : isBlank first = true
      · simpa [trimBlanks, leading] using induction
      · have behind : ∀ character ∈ blanks.reverse,
            isBlank character = true := by
          intro character member
          exact blank character (List.mem_reverse.mp member)
        rw [trimBlanks, trimBlanks, List.cons_append,
          List.dropWhile_cons_of_neg leading,
          List.dropWhile_cons_of_neg leading, ← List.cons_append,
          List.reverse_append, List.dropWhile_append_of_pos behind]

/-! ## Framing -/

theorem characters?_map_some (characters : List Char) :
    characters? (characters.map some) = some characters := by
  induction characters with
  | nil => rfl
  | cons first rest induction =>
      simp only [characters?] at induction ⊢
      simp [induction]

theorem frameFrom_newline
    (closed : Bool) (whole line : List Char) (rest : List Glyph) :
    frameFrom closed whole (line.map some).reverse (some '\n' :: rest) =
      if isComplete (whole ++ (line ++ ['\n'])) then
        .response (whole ++ (line ++ ['\n'])) rest
      else frameFrom closed (whole ++ (line ++ ['\n'])) [] rest := by
  have ordered : (some '\n' :: (line.map some).reverse).reverse =
      (line ++ ['\n']).map some := by simp
  rw [frameFrom, ordered, characters?_map_some]

theorem frameFrom_character
    {character : Char} (inside : character ≠ '\n')
    (closed : Bool) (whole line : List Char) (rest : List Glyph) :
    frameFrom closed whole (line.map some).reverse (some character :: rest) =
      frameFrom closed whole ((line ++ [character]).map some).reverse rest := by
  rw [frameFrom]
  · simp
  · intro same
    exact inside (Option.some.inj same)

theorem frameFrom_end
    {whole line : List Char} (incomplete : isComplete (whole ++ line) = false) :
    frameFrom true whole (line.map some).reverse [] = .ended := by
  have lastLine : characters? (line.map some).reverse.reverse = some line := by
    rw [List.reverse_reverse, characters?_map_some]
  cases reversed : (line.map some).reverse with
  | nil => rfl
  | cons glyph rest =>
      rw [reversed] at lastLine
      simp only [frameFrom, lastLine, incomplete]
      rfl

/--
If some line makes the response complete, reading stops there or at an earlier
line that does.
-/
theorem frameFrom_of_isComplete
    (closed : Bool) (whole line front behind : List Char)
    (complete : isComplete (whole ++ (line ++ front ++ ['\n'])) = true) :
    ∃ taken left, front ++ ['\n'] = taken ++ ['\n'] ++ left ∧
      isComplete (whole ++ (line ++ taken ++ ['\n'])) = true ∧
      frameFrom closed whole (line.map some).reverse
          ((front ++ '\n' :: behind).map some) =
        .response (whole ++ (line ++ taken ++ ['\n']))
          ((left ++ behind).map some) := by
  induction front generalizing whole line with
  | nil =>
      refine ⟨[], [], rfl, complete, ?_⟩
      rw [List.append_nil] at complete
      rw [List.nil_append, List.map_cons, frameFrom_newline, if_pos complete]
      simp
  | cons first rest induction =>
      by_cases newline : first = '\n'
      · subst newline
        by_cases early : isComplete (whole ++ (line ++ ['\n'])) = true
        · refine ⟨[], rest ++ ['\n'], rfl, by simpa using early, ?_⟩
          rw [List.cons_append, List.map_cons, frameFrom_newline,
            if_pos early]
          simp
        · rcases induction (whole ++ (line ++ ['\n'])) []
            (by simpa using complete) with ⟨taken, left, split, done, framed⟩
          refine ⟨'\n' :: taken, left, by simp [split], by simpa using done, ?_⟩
          rw [List.cons_append, List.map_cons, frameFrom_newline,
            if_neg early]
          simpa using framed
      · rcases induction whole (line ++ [first])
          (by simpa using complete) with ⟨taken, left, split, done, framed⟩
        refine ⟨first :: taken, left, by simp [split], by simpa using done, ?_⟩
        rw [List.cons_append, List.map_cons, frameFrom_character newline]
        simpa using framed

theorem isComplete_of_blanks
    {characters : List Char}
    (blank : ∀ character ∈ characters, isBlank character = true) :
    isComplete characters = false := by
  rw [isComplete_eq, scan_of_blanks blank]
  rfl

/-- Where only blanks are left, the output is over. -/
theorem frameFrom_of_blanks
    (whole line : List Char) {characters : List Char}
    (blank : ∀ character ∈ whole ++ line ++ characters,
      isBlank character = true) :
    frameFrom true whole (line.map some).reverse (characters.map some) =
      .ended := by
  induction characters generalizing whole line with
  | nil =>
      rw [List.append_nil] at blank
      exact frameFrom_end (isComplete_of_blanks blank)
  | cons first rest induction =>
      by_cases newline : first = '\n'
      · subst newline
        have regrouped : whole ++ line ++ '\n' :: rest =
            whole ++ (line ++ ['\n']) ++ rest := by simp
        rw [regrouped] at blank
        have incomplete := isComplete_of_blanks (fun character member =>
          blank character (List.mem_append_left rest member))
        rw [List.map_cons, frameFrom_newline, incomplete]
        exact induction (whole ++ (line ++ ['\n'])) [] (by simpa using blank)
      · rw [List.map_cons, frameFrom_character newline]
        exact induction whole (line ++ [first]) (by simpa using blank)

/-! ## Reading one response -/

namespace Session

variable {Peer : Type}

/--
A response that can be read is taken whole from its line, whatever blanks are
before it, and only blanks of it are left.
-/
theorem readResponse_of_read
    {session : Session Peer} {blanks text behind : List Char}
    {expression : SExpr}
    (blank : ∀ character ∈ blanks, isBlank character = true)
    (spells : spelled .between text = expression.tokens)
    (output : session.unread = (blanks ++ text ++ '\n' :: behind).map some) :
    ∃ left, (∀ character ∈ left, isBlank character = true) ∧
      session.readResponse =
        (.ok (String.ofList (trimBlanks text)),
          { session with unread := (left ++ behind).map some }) := by
  have shifted : spelled .between (blanks ++ text) = expression.tokens := by
    rw [spelled_blanks_append blank, spells]
  -- Reading may stop before the last line of the text, but then only blanks
  -- are left of it, which the next reading skips.
  rcases frameFrom_of_isComplete session.outputClosed [] [] (blanks ++ text)
    behind (isComplete_line shifted) with ⟨taken, left, split, done, framed⟩
  have ended : spelled .between (taken ++ ['\n'] ++ left) =
      expression.tokens := by
    rw [← split, spelled, scan_line shifted]
    exact List.append_nil _
  have blankLeft := blank_of_isComplete_line ended done
  refine ⟨left, blankLeft, ?_⟩
  have trimmed : trimBlanks (taken ++ ['\n']) = trimBlanks text := by
    have newline : ∀ character ∈ ['\n'], isBlank character = true :=
      List.all_eq_true.mp rfl
    rw [← trimBlanks_append_blanks blankLeft, ← split,
      trimBlanks_append_blanks newline, trimBlanks_blanks_append blank]
  change frame session.outputClosed
    ((blanks ++ text ++ '\n' :: behind).map some) =
      .response (taken ++ ['\n']) ((left ++ behind).map some) at framed
  rw [readResponse, output, framed]
  simp only [responseText, trimmed]

theorem readResponse_of_blanks
    {session : Session Peer} {blanks : List Char}
    (blank : ∀ character ∈ blanks, isBlank character = true)
    (closed : session.outputClosed = true)
    (output : session.unread = blanks.map some) :
    session.readResponse.1 = .error .processExited := by
  have ended : frame true (blanks.map some) = .ended :=
    frameFrom_of_blanks [] [] blank
  rw [readResponse, closed, output, ended]

/-! ## Reading them all -/

/-- Read responses one after another. -/
def readResponses :
    Nat → Session Peer → List (Except SolverError String) × Session Peer
  | 0, session => ([], session)
  | count + 1, session =>
    let (response, read) := session.readResponse
    let (further, last) := readResponses count read
    (response :: further, last)

end Session

/-- A response that can be read, and the blanks written after its line. -/
structure Delivery where
  response : String
  blanks : String
  readable : ∃ expression, SExpr.read response = .ok expression
  blank : blanks.toList.all isBlank = true

/-- What a process writes for a delivery. -/
def Delivery.written (delivery : Delivery) : String :=
  delivery.response ++ "\n" ++ delivery.blanks

/-- The characters of deliveries, one after another. -/
def Delivery.characters (deliveries : List Delivery) : List Char :=
  deliveries.flatMap (fun delivery => delivery.written.toList)

namespace Session

variable {Peer : Type}

theorem readResponses_of_written
    (deliveries : List Delivery) {session : Session Peer} {blanks : List Char}
    (blank : ∀ character ∈ blanks, isBlank character = true)
    (output : session.unread =
      (blanks ++ Delivery.characters deliveries).map some) :
    ∃ left : List Char, (∀ character ∈ left, isBlank character = true) ∧
      session.readResponses deliveries.length =
        (deliveries.map (fun delivery => .ok (trim delivery.response)),
          { session with unread := left.map some }) := by
  induction deliveries generalizing session blanks with
  | nil =>
      refine ⟨blanks, blank, ?_⟩
      rw [Delivery.characters, List.flatMap_nil, List.append_nil] at output
      rw [← output]
      rfl
  | cons delivery rest induction =>
      rcases delivery.readable with ⟨expression, read⟩
      rw [SExpr.read_eq_ok_iff] at read
      have arranged : session.unread =
          (blanks ++ delivery.response.toList ++ '\n' ::
            (delivery.blanks.toList ++ Delivery.characters rest)).map some := by
        rw [output]
        simp [Delivery.characters, Delivery.written]
      rcases readResponse_of_read blank read arranged with
        ⟨left, blankLeft, first⟩
      have blankNext : ∀ character ∈ left ++ delivery.blanks.toList,
          isBlank character = true := by
        intro character member
        rcases List.mem_append.mp member with before | after
        · exact blankLeft character before
        · exact List.all_eq_true.mp delivery.blank character after
      have outputNext : session.readResponse.2.unread =
          (left ++ delivery.blanks.toList ++
            Delivery.characters rest).map some := by
        rw [first, List.append_assoc]
      rcases induction blankNext outputNext with ⟨last, blankLast, others⟩
      refine ⟨last, blankLast, ?_⟩
      rw [List.length_cons, readResponses]
      simp only [others]
      rw [first]
      rfl

/--
Responses that can be read arrive one by one and whole, without the blanks
around them; and once the output is over, there are no more.
-/
theorem responses_arrive_whole
    (deliveries : List Delivery) (session : Session Peer)
    (output : session.unread =
      glyphs (String.join (deliveries.map Delivery.written))) :
    (session.readResponses deliveries.length).1 =
        deliveries.map (fun delivery => .ok (trim delivery.response)) ∧
      (session.outputClosed = true →
        (session.readResponses deliveries.length).2.readResponse.1 =
          .error .processExited) := by
  have joined : glyphs (String.join (deliveries.map Delivery.written)) =
      ([] ++ Delivery.characters deliveries).map some := by
    rw [glyphs, String.toList_join, List.flatMap_map, List.nil_append]
    rfl
  rcases readResponses_of_written deliveries (by simp)
    (output.trans joined) with ⟨left, blank, all⟩
  rw [all]
  refine ⟨rfl, ?_⟩
  intro closed
  exact readResponse_of_blanks blank closed rfl

end Session

/-- A response with line breaks in a list, a string and a quoted symbol. -/
def brokenLines : Delivery where
  response := " ((|a\n)| \"one\"\"\n(two\")\n (b\n #b1))"
  blanks := "\n  \n"
  readable := by
    refine ⟨.list [.list [.atom "a\n)", .str "one\"\n(two"],
      .list [.atom "b", .atom "#b1"]], ?_⟩
    rw [SExpr.read_eq_ok_iff]
    decide +kernel
  blank := by decide

/-- A response of one word. -/
def oneWord : Delivery where
  response := "sat"
  blanks := ""
  readable := by
    refine ⟨.atom "sat", ?_⟩
    rw [SExpr.read_eq_ok_iff]
    decide +kernel
  blank := by decide

/-- A process that has written both and ended. -/
def bothDelivered : Session Unit where
  peer := ()
  unread := glyphs (String.join [brokenLines.written, oneWord.written])
  outputClosed := true
  stopped := false
  declared := []
  lastCheck := none

/-- Both are read, one after the other, and then the process has exited. -/
theorem bothDelivered_arrive_whole :
    (bothDelivered.readResponses 2).1 =
        [.ok "((|a\n)| \"one\"\"\n(two\")\n (b\n #b1))", .ok "sat"] ∧
      (bothDelivered.readResponses 2).2.readResponse.1 =
        .error .processExited := by
  rcases Session.responses_arrive_whole [brokenLines, oneWord] bothDelivered
    rfl with ⟨responses, exited⟩
  have first : trim brokenLines.response =
      "((|a\n)| \"one\"\"\n(two\")\n (b\n #b1))" := by decide +kernel
  have second : trim oneWord.response = "sat" := by decide +kernel
  refine ⟨responses.trans ?_, exited rfl⟩
  rw [List.map_cons, List.map_singleton, first, second]

end FlowWitness.Solver
