import Mathlib.Data.List.Forall2
import SymbolBridge.LineInput
import SymbolBridge.Proofs.Text.Cut

/-!
# Reading from a queue of lines

A queue serves requests for a line, one after the other (`LineQueue.serve`). A request has room if its buffer holds a byte
before the terminator. One with room takes a line off the queue and shows its prompt, also when no line is left; one
without is refused and leaves the queue as it is (`LineQueue.read_of_hasRoom`, `LineQueue.read_of_not_hasRoom`). So the
lines that are left are those after as many as there were requests with room (`LineQueue.lines_serve`), the prompts shown
are the prompts of these requests (`LineQueue.prompts_serve`), and each of them is answered by the line at its own place
among them (`LineQueue.serves_lines_in_order`).
-/

namespace SymbolBridge

open Text

/-- A prompt, and the bytes of the buffers for it and for the line. -/
structure LineRequest where
  prompt : String
  buffer : Nat
  deriving DecidableEq, Repr

namespace LineRequest

/-- Whether the buffer holds a byte and a terminator. -/
def hasRoom (r : LineRequest) : Bool := 2 ≤ r.buffer

/-- The bytes for text. -/
def capacity (r : LineRequest) : Nat := r.buffer - 1

theorem hasRoom_iff {r : LineRequest} : r.hasRoom ↔ 2 ≤ r.buffer := decide_eq_true_iff

end LineRequest

/-- What is kept of a line: one line feed and then one carriage return are taken off its end, and the rest is cut to the
longest prefix that fits. -/
def KeptOfLine (capacity : Nat) (line text : String) : Prop :=
  ∃ unfed bare, WithoutOne '\n' line.toList unfed ∧ WithoutOne '\r' unfed bare ∧
    LongestWithin capacity bare text.toList

theorem keptOfLine_keptLine (capacity : Nat) (line : String) : KeptOfLine capacity line (keptLine capacity line) := by
  refine ⟨_, _, withoutOne_dropLast '\n' line.toList, withoutOne_dropLast '\r' _, ?_⟩
  rw [keptLine, String.toList_ofList]
  exact longestWithin_takeBytes capacity _

theorem KeptOfLine.byteLength_le {capacity : Nat} {line text : String} (h : KeptOfLine capacity line text) :
    byteLength text.toList ≤ capacity := by
  obtain ⟨unfed, bare, -, -, hkept⟩ := h
  exact hkept.fits

namespace LineQueue

/-! ## One request -/

/-- The text that answers a request with room: what is kept of the first line, or nothing if there is none. -/
def answer (q : LineQueue) (r : LineRequest) : String := (q.lines.head?.map (keptLine r.capacity)).getD ""

theorem read_of_hasRoom (q : LineQueue) {r : LineRequest} (h : r.hasRoom) :
    read.readBounded r.prompt r.buffer q =
      (.ok (q.answer r), { lines := q.lines.tail, prompts := q.prompts.push (truncate r.capacity r.prompt) }) := by
  have hbuffer : ¬ r.buffer < 2 := Nat.not_lt.2 (LineRequest.hasRoom_iff.1 h)
  rw [LineSource.readBounded, if_neg hbuffer, answer]
  obtain ⟨lines, prompts⟩ := q
  cases lines with
  | nil => rfl
  | cons line lines => rfl

theorem read_of_not_hasRoom (q : LineQueue) {r : LineRequest} (h : ¬ r.hasRoom) :
    read.readBounded r.prompt r.buffer q = (.error (.bufferTooSmall r.buffer), q) := by
  have hbuffer : r.buffer < 2 := Nat.not_le.1 fun hle => h (LineRequest.hasRoom_iff.2 hle)
  rw [LineSource.readBounded, if_pos hbuffer]
  rfl

/-! ## A history of requests -/

/-- Serves requests in order: their answers, and the queue afterwards. -/
def serve (q : LineQueue) : List LineRequest → List (Except LineError String) × LineQueue
  | [] => ([], q)
  | r :: rs =>
    let (answer, q) := read.readBounded r.prompt r.buffer q
    let (answers, q) := q.serve rs
    (answer :: answers, q)

theorem serve_cons (q : LineQueue) (r : LineRequest) (rs : List LineRequest) : q.serve (r :: rs) =
    ((read.readBounded r.prompt r.buffer q).1 :: ((read.readBounded r.prompt r.buffer q).2.serve rs).1,
      ((read.readBounded r.prompt r.buffer q).2.serve rs).2) := rfl

theorem serve_append (q : LineQueue) (rs rs' : List LineRequest) : q.serve (rs ++ rs') =
    ((q.serve rs).1 ++ ((q.serve rs).2.serve rs').1, ((q.serve rs).2.serve rs').2) := by
  induction rs generalizing q with
  | nil => rfl
  | cons r rs ih => rw [List.cons_append, serve_cons, serve_cons, ih, List.cons_append]

theorem length_serve (q : LineQueue) (rs : List LineRequest) : (q.serve rs).1.length = rs.length := by
  induction rs generalizing q with
  | nil => rfl
  | cons r rs ih => rw [serve_cons, List.length_cons, ih, List.length_cons]

/-- Each request with room takes one line, and no other does. -/
theorem lines_serve (q : LineQueue) (rs : List LineRequest) :
    (q.serve rs).2.lines = q.lines.drop (rs.countP LineRequest.hasRoom) := by
  induction rs generalizing q with
  | nil => rfl
  | cons r rs ih =>
    rw [serve_cons, ih]
    by_cases h : r.hasRoom
    · rw [read_of_hasRoom q h, List.countP_cons_of_pos h, ← List.drop_one, List.drop_drop, Nat.add_comm]
    · rw [read_of_not_hasRoom q h, List.countP_cons_of_neg h]

/-- Each request with room shows its prompt, and no other does. -/
theorem prompts_serve (q : LineQueue) (rs : List LineRequest) : (q.serve rs).2.prompts =
    q.prompts ++ ((rs.filter LineRequest.hasRoom).map fun r => truncate r.capacity r.prompt).toArray := by
  induction rs generalizing q with
  | nil => simp [serve]
  | cons r rs ih =>
    rw [serve_cons, ih]
    by_cases h : r.hasRoom
    · rw [read_of_hasRoom q h, List.filter_cons_of_pos h]
      simp
    · rw [read_of_not_hasRoom q h, List.filter_cons_of_neg h]

theorem head?_lines_serve (q : LineQueue) (rs : List LineRequest) :
    (q.serve rs).2.lines.head? = q.lines[rs.countP LineRequest.hasRoom]? := by
  rw [lines_serve, List.head?_drop]

/-- The answer to a request is that of the queue which the requests before it have left. -/
theorem getElem?_serve (q : LineQueue) (before : List LineRequest) (r : LineRequest) (after : List LineRequest) :
    (q.serve (before ++ r :: after)).1[before.length]? =
      some (read.readBounded r.prompt r.buffer (q.serve before).2).1 := by
  rw [serve_append, serve_cons, ← q.length_serve before, List.getElem?_append_right (Nat.le_refl _), Nat.sub_self,
    List.getElem?_cons_zero]

/-- **A queue serves its lines in order.** Whatever is asked of it, every request has one answer. The prompts shown are
those of the requests with room, each cut to the longest prefix that fits, and these requests alone take a line each. The
answer to a request with room is what is kept of the line at its place among such requests, and nothing if the lines are
used up; it fits in the buffer with its terminator. A request without room is refused and changes nothing. -/
theorem serves_lines_in_order (q : LineQueue) (rs : List LineRequest) :
    (q.serve rs).1.length = rs.length ∧
    (q.serve rs).2.lines = q.lines.drop (rs.countP LineRequest.hasRoom) ∧
    (∃ shown : List String, (q.serve rs).2.prompts = q.prompts ++ shown.toArray ∧
      List.Forall₂ (fun r prompt => LongestWithin (r.buffer - 1) r.prompt.toList prompt.toList)
        (rs.filter LineRequest.hasRoom) shown) ∧
    ∀ before r after, rs = before ++ r :: after →
      (r.buffer < 2 → (q.serve rs).1[before.length]? = some (.error (.bufferTooSmall r.buffer)) ∧
        (q.serve (before ++ [r])).2 = (q.serve before).2) ∧
      (2 ≤ r.buffer → ∃ text, (q.serve rs).1[before.length]? = some (.ok text) ∧
        byteLength text.toList ≤ r.buffer - 1 ∧
        (q.lines[before.countP LineRequest.hasRoom]? = none → text = "") ∧
        ∀ line, q.lines[before.countP LineRequest.hasRoom]? = some line → KeptOfLine (r.buffer - 1) line text) := by
  refine ⟨length_serve q rs, lines_serve q rs, ⟨_, prompts_serve q rs, ?_⟩, ?_⟩
  · rw [List.forall₂_map_right_iff, List.forall₂_same]
    intro r _
    exact longestWithin_truncate r.capacity r.prompt
  · rintro before r after rfl
    refine ⟨fun hsmall => ?_, fun hroom => ?_⟩
    · have h : ¬ r.hasRoom := fun hroom => Nat.not_le.2 hsmall (LineRequest.hasRoom_iff.1 hroom)
      rw [getElem?_serve, serve_append, serve_cons, read_of_not_hasRoom _ h]
      exact ⟨rfl, rfl⟩
    · have h : r.hasRoom := LineRequest.hasRoom_iff.2 hroom
      have hhead := q.head?_lines_serve before
      refine ⟨(q.serve before).2.answer r, ?_, ?_⟩
      · rw [getElem?_serve, read_of_hasRoom _ h]
      · rw [answer, hhead]
        cases hline : q.lines[before.countP LineRequest.hasRoom]? with
        | none => exact ⟨Nat.zero_le _, fun _ => rfl, fun line hsome => by cases hsome⟩
        | some line =>
          have hkept : KeptOfLine r.capacity line (keptLine r.capacity line) := keptOfLine_keptLine r.capacity line
          refine ⟨hkept.byteLength_le, (fun hnone => by cases hnone), fun line' hsome => ?_⟩
          cases hsome
          exact hkept

end LineQueue

end SymbolBridge
