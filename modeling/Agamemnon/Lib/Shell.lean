import Mathlib.Data.List.Basic

/-!
# Words of a shell

How a shell takes a line apart into words, by the rules for quotes: a backslash, single quotes and
double quotes.  A line with anything else that the shell acts upon (an operator, an expansion, a
quote that is not closed) has no words here.
-/

namespace Shell

inductive Mode
  | bare | bareEscape | single | double | doubleEscape
  deriving DecidableEq, Repr

/-- The words that have been read, and the one that is being read, if there is one. -/
structure Reader where
  mode : Mode
  finished : List (List Char)
  word : Option (List Char)
  deriving DecidableEq, Repr

/-- The letters that end a word and are not part of the next one, or start an expansion. -/
def special : List Char :=
  ['|', '&', ';', '<', '>', '(', ')', '$', '`', '\n']

namespace Reader

/-- Letters are added to the word that is being read; without letters it is only begun. -/
def add (r : Reader) (mode : Mode) (letters : List Char) : Reader where
  mode := mode
  finished := r.finished
  word := some (r.word.getD [] ++ letters)

def step (r : Reader) (c : Char) : Option Reader :=
  match r.mode with
  | .bare =>
      if c = '\\' then some { r with mode := .bareEscape }
      else if c = '"' then some (r.add .double [])
      else if c = '\'' then some (r.add .single [])
      else if c = ' ' ∨ c = '\t' then some ⟨.bare, r.finished ++ r.word.toList, none⟩
      else if c ∈ special then none
      else some (r.add .bare [c])
  | .bareEscape => some (if c = '\n' then { r with mode := .bare } else r.add .bare [c])
  | .single => some (if c = '\'' then { r with mode := .bare } else r.add .single [c])
  | .double =>
      if c = '"' then some { r with mode := .bare }
      else if c = '\\' then some { r with mode := .doubleEscape }
      else if c ∈ ['$', '`'] then none
      else some (r.add .double [c])
  | .doubleEscape =>
      some (if c = '\n' then { r with mode := .double }
        else if c ∈ ['$', '`', '"', '\\'] then r.add .double [c]
        else r.add .double ['\\', c])

def finish (r : Reader) : Option (List (List Char)) :=
  if r.mode = .bare then some (r.finished ++ r.word.toList) else none

def read (r : Reader) (line : List Char) : Option (List (List Char)) :=
  (line.foldlM step r).bind finish

/-- All letters that have been read. -/
def text (r : Reader) : List Char :=
  r.finished.flatten ++ r.word.getD []

variable {r r' : Reader} {c : Char} {line : List Char} {ws : List (List Char)}

theorem read_nil :
  r.read [] = r.finish
  := rfl

theorem read_cons :
  r.read (c :: line) = (r.step c).bind (·.read line)
  := by
  rw [read, List.foldlM_cons]
  cases r.step c <;> rfl

theorem read_append (line' : List Char) :
  r.read (line ++ line') = (line.foldlM step r).bind (·.read line')
  := by
  rw [read, List.foldlM_append]
  cases line.foldlM step r <;> rfl

@[simp]
theorem text_add (mode : Mode) (letters : List Char) :
  (r.add mode letters).text = r.text ++ letters
  := by
  rw [add, text, text, List.append_assoc]
  rfl

@[simp]
theorem text_mode (mode : Mode) :
  Reader.text { r with mode := mode } = r.text
  := rfl

theorem flatten_of_finish (h : r.finish = some ws) :
  r.mode = .bare ∧ ws.flatten = r.text
  := by
  rw [finish] at h
  split_ifs at h with hmode
  obtain rfl := Option.some.inj h
  refine ⟨hmode, ?_⟩
  rw [List.flatten_append, text]
  cases r.word <;> simp

/-- What a letter adds to the text. -/
theorem text_of_step (h : r.step c = some r') :
  ∃ letters ∈ [[], [c], ['\\', c]], r'.text = r.text ++ letters
  := by
  unfold step at h
  split at h
  · split_ifs at h <;> obtain rfl := Option.some.inj h
    · use []
      simp
    · use []
      simp
    · use []
      simp
    · use []
      cases hword : r.word <;> simp [text, hword]
    · use [c]
      simp
  · obtain rfl := Option.some.inj h
    split_ifs
    · use []
      simp
    · use [c]
      simp
  · obtain rfl := Option.some.inj h
    split_ifs
    · use []
      simp
    · use [c]
      simp
  · split_ifs at h <;> obtain rfl := Option.some.inj h
    · use []
      simp
    · use []
      simp
    · use [c]
      simp
  · obtain rfl := Option.some.inj h
    split_ifs
    · use []
      simp
    · use [c]
      simp
    · use ['\\', c]
      simp

/-- A word has no letters but those of the line and backslashes. -/
theorem mem_of_read (h : r.read line = some ws) (hc : c ∈ ws.flatten) (hescape : c ≠ '\\') :
  c ∈ r.text ∨ c ∈ line
  := by
  induction line generalizing r with
  | nil =>
    left
    rw [← (flatten_of_finish h).2]
    exact hc
  | cons d line ih =>
    rw [read_cons] at h
    obtain ⟨r', hstep, hread⟩ := Option.bind_eq_some_iff.mp h
    obtain ⟨letters, hletters, htext⟩ := text_of_step hstep
    rw [List.mem_cons, ← or_assoc]
    apply (ih hread).imp_left
    rw [htext, List.mem_append]
    apply Or.imp_right
    intro hmem
    simp only [List.mem_cons, List.not_mem_nil, or_false] at hletters
    rcases hletters with rfl | rfl | rfl
    · cases hmem
    · exact List.mem_singleton.mp hmem
    · simpa [hescape] using hmem

end Reader

/-- The words of a line. -/
def words (line : List Char) : Option (List (List Char)) :=
  Reader.read ⟨.bare, [], none⟩ line

end Shell
