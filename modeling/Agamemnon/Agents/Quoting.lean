import Agamemnon.Agents.Commands
import Agamemnon.Lib.Shell
import Mathlib.Data.List.Chain

/-!
# The command that the shell gets

`executeBash` puts the command between double quotes, with a backslash before each quote of the
command.  A backslash of the command is left as it is.  So the shell gets the command that was
accepted exactly if no backslash of it, with what comes after it, means something between double
quotes, and if no letter ends the string (`quoted_iff`).

To read a quote of the command as the end of the text costs a quote, and no other letter gives one
back; only a backslash at the end can, and then the text ends with another letter.
-/

namespace Agamemnon

open Commands Shell Reader

namespace TaskAgent

/-- The loop that puts a backslash before each quote. -/
def escapeQuotes (command : List Char) : List Char :=
  command.flatMap fun c => if c = '"' then ['\\', '"'] else [c]

/-- The string that is passed to `popen`. -/
def bashCommand (command : String) : String :=
  "/bin/bash -c \"" ++ String.ofList (escapeQuotes command.toList) ++ "\""

/-- What `c_str` shows of a string. -/
def cStr (text : String) : List Char :=
  text.toList.takeWhile (· ≠ '\x00')

/-- The shell runs `bash -c` with the command as its one argument. -/
def Quoted (command : String) : Prop :=
  words (cStr (bashCommand command)) = some ["/bin/bash".toList, "-c".toList, command.toList]

/-- Nothing that a backslash of the command stands before is special between double quotes; the
closing quote stands after the last letter. -/
def Inert (command : List Char) : Prop :=
  (command ++ ['"']).IsChain fun c d => c = '\\' → d ∉ ['"', '\\', '\n']

instance (command : List Char) : Decidable (Inert command) :=
  inferInstanceAs (Decidable (List.IsChain _ _))

section Reading

variable {r r' : Reader} {c : Char} {w : List Char} {ws : List (List Char)}

/-- What is left of the line after the opening quote. -/
def rest (w : List Char) : List Char :=
  escapeQuotes w ++ ['"']

theorem rest_cons_quote (w : List Char) :
  rest ('"' :: w) = '\\' :: '"' :: rest w
  := rfl

theorem rest_cons_of_ne (hc : c ≠ '"') (w : List Char) :
  rest (c :: w) = c :: rest w
  := by
  simp [rest, escapeQuotes, hc]

theorem inert_cons_of_ne (hc : c ≠ '\\') :
  Inert (c :: w) ↔ Inert w
  := by
  cases w with
  | nil | cons d w => simp [Inert, hc]

theorem inert_escape_cons (hc : c ≠ '\\') :
  Inert ('\\' :: c :: w) ↔ c ∉ ['"', '\\', '\n'] ∧ Inert w
  := by
  have hrest : Inert (c :: w) ↔ Inert w := inert_cons_of_ne hc
  rw [← hrest]
  simp only [Inert, List.cons_append, List.isChain_cons_cons, forall_const]

/-- The backslash that has been read and is not yet in the text. -/
def pending (r : Reader) : List Char :=
  if r.mode = .bareEscape ∨ r.mode = .doubleEscape then ['\\'] else []

/-- The text and the backslash. -/
def taken (r : Reader) : List Char :=
  r.text ++ pending r

theorem count_taken (r : Reader) :
  (taken r).count '"' = r.text.count '"'
  := by
  rw [taken, List.count_append, pending]
  split_ifs <;> rfl

theorem pending_of_step (h : r.step c = some r') :
  pending r' = [] ∨ pending r' = [c]
  := by
  unfold Reader.step at h
  split at h
  · split_ifs at h <;> obtain rfl := Option.some.inj h <;> simp_all [pending, Reader.add]
  · obtain rfl := Option.some.inj h
    split_ifs <;> simp [pending, Reader.add]
  · obtain rfl := Option.some.inj h
    split_ifs <;> simp [pending, Reader.add]
  · split_ifs at h <;> obtain rfl := Option.some.inj h <;> simp_all [pending, Reader.add]
  · obtain rfl := Option.some.inj h
    split_ifs <;> simp [pending, Reader.add]

/-- The command ends with a backslash, and the words with a quote. -/
def EndsOpen (r : Reader) (w : List Char) (ws : List (List Char)) : Prop :=
  ['\\'] <:+ pending r ++ w ∧ ['"'] <:+ ws.flatten

theorem EndsOpen.cons (h : EndsOpen r' w ws) (hpending : pending r' = [] ∨ pending r' = [c]) :
  EndsOpen r (c :: w) ws
  := by
  refine ⟨?_, h.2⟩
  have hsuffix : pending r' ++ w <:+ c :: w := by
    rcases hpending with heq | heq <;> rw [heq]
    · apply List.suffix_cons
    · apply List.suffix_refl
  exact (h.1.trans hsuffix).trans (List.suffix_append _ _)

/-- The closing quote ends the text, unless a backslash stands before it. -/
theorem flatten_of_closing (h : r.read ['"'] = some ws) :
  r.mode = .double ∧ ws.flatten = r.text
    ∨ r.mode = .bareEscape ∧ ws.flatten = r.text ++ ['"']
  := by
  rw [read_cons] at h
  obtain ⟨r', hstep, hfinish⟩ := Option.bind_eq_some_iff.mp h
  obtain ⟨hmode, htext⟩ := flatten_of_finish hfinish
  cases hr : r.mode with
  | bareEscape =>
    right
    simp only [step, hr] at hstep
    obtain rfl := Option.some.inj hstep
    exact ⟨rfl, htext.trans (text_add _ _)⟩
  | double =>
    left
    simp only [step, hr] at hstep
    obtain rfl := Option.some.inj hstep
    exact ⟨rfl, htext⟩
  | bare | single | doubleEscape =>
    simp only [step, hr] at hstep
    obtain rfl := Option.some.inj hstep
    cases hmode

/-- However the line is read, the words have no more quotes than the command, unless a backslash at
its end takes the closing quote. -/
theorem count_le_of_read (h : r.read (rest w) = some ws) :
  ws.flatten.count '"' ≤ (taken r ++ w).count '"' ∨ EndsOpen r w ws
  := by
  induction w generalizing r with
  | nil =>
    rw [List.append_nil, count_taken]
    rcases flatten_of_closing h with ⟨-, htext⟩ | ⟨hmode, htext⟩
    · left
      rw [htext]
    · right
      rw [EndsOpen, htext, pending, if_pos (.inl hmode)]
      exact ⟨List.suffix_refl _, List.suffix_append _ _⟩
  | cons c w ih =>
    by_cases hc : c = '"'
    · subst hc
      rw [rest_cons_quote, Reader.read_cons] at h
      obtain ⟨r₁, hstep₁, h⟩ := Option.bind_eq_some_iff.mp h
      rw [Reader.read_cons] at h
      obtain ⟨r₂, hstep₂, h⟩ := Option.bind_eq_some_iff.mp h
      obtain ⟨letters₁, hletters₁, htext₁⟩ := Reader.text_of_step hstep₁
      obtain ⟨letters₂, hletters₂, htext₂⟩ := Reader.text_of_step hstep₂
      rcases ih h with hle | hopen
      · left
        rw [List.count_append, count_taken, htext₂, htext₁] at hle
        rw [List.count_append, count_taken, List.count_cons_self]
        simp only [List.mem_cons, List.not_mem_nil, or_false] at hletters₁ hletters₂
        rcases hletters₁ with rfl | rfl | rfl <;> rcases hletters₂ with rfl | rfl | rfl <;>
          simp at hle <;> omega
      · right
        exact hopen.cons (pending_of_step hstep₂)
    · rw [rest_cons_of_ne hc, Reader.read_cons] at h
      obtain ⟨r', hstep, h⟩ := Option.bind_eq_some_iff.mp h
      obtain ⟨letters, hletters, htext⟩ := Reader.text_of_step hstep
      rcases ih h with hle | hopen
      · left
        rw [List.count_append, count_taken, htext] at hle
        rw [List.count_append, count_taken, List.count_cons_of_ne hc]
        simp only [List.mem_cons, List.not_mem_nil, or_false] at hletters
        rcases hletters with rfl | rfl | rfl <;> simp [hc] at hle <;> omega
      · right
        exact hopen.cons (pending_of_step hstep)

/-- What has become of the command when the line after the opening quote has been read: it is all
there, or letters or quotes are missing, or it ends with another letter. -/
inductive Reads (r : Reader) (w : List Char) (ws : List (List Char)) : Prop
  | whole (hinert : Inert (pending r ++ w)) (htext : ws.flatten = taken r ++ w)
  | shorter (hlength : ws.flatten.length < (taken r ++ w).length)
  | fewer (hcount : ws.flatten.count '"' < (taken r ++ w).count '"')
  | endsOpen (hopen : EndsOpen r w ws)

theorem Reads.copied (h : Reads r' w ws) (htaken : taken r' = taken r ++ [c])
    (hpending : pending r' = [] ∨ pending r' = [c])
    (hinert : Inert (pending r' ++ w) → Inert (pending r ++ c :: w)) :
  Reads r (c :: w) ws
  := by
  have hsplit : taken r' ++ w = taken r ++ c :: w := by
    rw [htaken, List.append_assoc]
    rfl
  cases h with
  | whole hplain htext => exact .whole (hinert hplain) (htext.trans hsplit)
  | shorter hlength => exact .shorter (hsplit ▸ hlength)
  | fewer hcount => exact .fewer (hsplit ▸ hcount)
  | endsOpen hopen => exact .endsOpen (hopen.cons hpending)

theorem Reads.lost (h : Reads r' w ws) (hlength : (taken r').length ≤ (taken r).length)
    (hcount : (taken r').count '"' ≤ (taken r).count '"') (hpending : pending r' = []) :
  Reads r (c :: w) ws
  := by
  cases h with
  | whole hplain htext =>
    apply Reads.shorter
    rw [htext, List.length_append, List.length_append, List.length_cons]
    omega
  | shorter hshorter =>
    apply Reads.shorter
    rw [List.length_append] at hshorter
    rw [List.length_append, List.length_cons]
    omega
  | fewer hfewer =>
    apply Reads.fewer
    rw [List.count_append] at hfewer
    rw [List.count_append, List.count_cons]
    omega
  | endsOpen hopen => exact .endsOpen (hopen.cons (.inl hpending))

theorem reads_of_read (hmode : r.mode = .double ∨ r.mode = .doubleEscape)
    (h : r.read (rest w) = some ws) :
  Reads r w ws
  := by
  induction w generalizing r with
  | nil =>
    rcases flatten_of_closing h with ⟨hdouble, htext⟩ | ⟨hbare, -⟩
    · have hpending : pending r = [] := by simp [pending, hdouble]
      apply Reads.whole
      · rw [hpending]
        decide
      · rw [taken, hpending, htext, List.append_nil, List.append_nil]
    · rw [hbare] at hmode
      cases hmode <;> contradiction
  | cons c w ih =>
    obtain ⟨mode, finished, word⟩ := r
    rcases hmode with rfl | rfl
    · -- between the quotes
      by_cases hquote : c = '"'
      · subst hquote
        apply (ih (.inl rfl) h).copied
        · simp [taken, pending, add, text]
        · exact .inl rfl
        · exact (inert_cons_of_ne (by decide)).mpr
      · rw [rest_cons_of_ne hquote, read_cons] at h
        by_cases hescape : c = '\\'
        · subst hescape
          apply (ih (.inr rfl) h).copied
          · simp [taken, pending, text]
          · exact .inr rfl
          · exact id
        · simp only [step, hquote, hescape, if_false] at h
          split_ifs at h
          · cases h
          · apply (ih (.inl rfl) h).copied
            · simp [taken, pending, add, text]
            · exact .inl rfl
            · exact (inert_cons_of_ne hescape).mpr
    · -- after a backslash
      by_cases hquote : c = '"'
      · subst hquote
        have hclosed : Reader.read ⟨.bare, finished, some (word.getD [] ++ ['\\'])⟩ (rest w)
            = some ws := h
        rcases count_le_of_read hclosed with hle | hopen
        · apply Reads.fewer
          rw [List.count_append, count_taken] at hle
          rw [List.count_append, count_taken, List.count_cons_self]
          simp [Reader.text] at hle ⊢
          omega
        · exact .endsOpen (hopen.cons (.inl rfl))
      · rw [rest_cons_of_ne hquote, Reader.read_cons] at h
        simp only [Reader.step] at h
        split_ifs at h with hnewline hspecial
        · apply (ih (.inl rfl) h).lost
          · simp [taken, pending, Reader.text]
          · simp [taken, pending, Reader.text]
          · rfl
        · apply (ih (.inl rfl) h).lost
          · simp [taken, pending, Reader.add, Reader.text]
          · simp [taken, pending, Reader.add, Reader.text, hquote]
          · rfl
        · apply (ih (.inl rfl) h).copied
          · simp [taken, pending, Reader.add, Reader.text]
          · exact .inl rfl
          · intro hinert
            have hcopied : c ∉ ['"', '\\', '\n'] := by grind
            exact (inert_escape_cons (by grind)).mpr ⟨hcopied, hinert⟩

/-- Between double quotes a command that is inert and has no expansions stays as it is. -/
theorem read_of_inert (finished : List (List Char)) (word : List Char)
    (hplain : ∀ c ∈ w, c ∉ ['$', '`']) :
  (Inert w →
    read ⟨.double, finished, some word⟩ (rest w) = some (finished ++ [word ++ w]))
  ∧ (Inert ('\\' :: w) →
    read ⟨.doubleEscape, finished, some word⟩ (rest w)
      = some (finished ++ [word ++ '\\' :: w]))
  := by
  induction w generalizing word with
  | nil =>
    constructor
    · intro _
      rw [List.append_nil]
      rfl
    · intro hinert
      cases hinert with
      | cons_cons h => simp at h
  | cons c w ih =>
    obtain ⟨hc, hw⟩ := List.forall_mem_cons.mp hplain
    constructor
    · intro hinert
      by_cases hescape : c = '\\'
      · subst hescape
        exact (ih word hw).2 hinert
      · have hread := (ih (word ++ [c]) hw).1 ((inert_cons_of_ne hescape).mp hinert)
        rw [List.append_assoc] at hread
        by_cases hquote : c = '"'
        · subst hquote
          exact hread
        · rw [rest_cons_of_ne hquote, Reader.read_cons]
          simp only [Reader.step, hquote, hescape, hc, if_false]
          exact hread
    · intro hinert
      have hne : c ≠ '\\' := by
        rintro rfl
        simp [Inert] at hinert
      obtain ⟨hcopied, hinert⟩ := (inert_escape_cons hne).mp hinert
      have hread := (ih (word ++ ['\\', c]) hw).1 hinert
      rw [List.append_assoc] at hread
      rw [rest_cons_of_ne (by grind), Reader.read_cons]
      simp only [Reader.step]
      rw [if_neg (by grind), if_neg (by grind)]
      exact hread

end Reading

/-- What is read before the opening quote. -/
theorem words_bashCommand (w : List Char) :
  words ("/bin/bash -c \"".toList ++ w)
    = read ⟨.double, ["/bin/bash".toList, "-c".toList], some []⟩ w
  := by
  rw [words, read_append]
  rfl

theorem cStr_bashCommand {command : String} (hcommand : '\x00' ∉ command.toList) :
  cStr (bashCommand command) = "/bin/bash -c \"".toList ++ rest command.toList
  := by
  have hline : (bashCommand command).toList = "/bin/bash -c \"".toList ++ rest command.toList := by
    simp [bashCommand, rest]
  have hescaped : '\x00' ∉ escapeQuotes command.toList := by
    rw [escapeQuotes, List.mem_flatMap]
    rintro ⟨c, hc, hmem⟩
    split_ifs at hmem
    · simp at hmem
    · rw [List.mem_singleton.mp hmem] at hcommand
      exact hcommand hc
  rw [cStr, hline, List.takeWhile_eq_self_iff]
  intro c hc
  apply decide_eq_true
  rintro rfl
  rcases List.mem_append.mp hc with hc | hc
  · exact absurd hc (by decide)
  · rcases List.mem_append.mp hc with hc | hc
    · exact hescaped hc
    · exact absurd hc (by decide)

/-- An accepted command has no expansions, the arithmetic one apart. -/
theorem plain_of_accepted {stod : String → Except String ℚ} {order : List String} {command : String}
    (h : validateCommand stod order command = .ok ⟨⟩)
    (harithmetic : arithmeticPattern.rmatch command.toList = false) :
  ∀ c ∈ command.toList, c ∉ ['$', '`']
  := by
  have hletters {pattern : RegularExpression Char} (hmatch : pattern.rmatch command.toList = true)
      (hplain : ∀ c ∈ Pattern.letters pattern, c ∉ ['$', '`']) :
      ∀ c ∈ command.toList, c ∉ ['$', '`'] := fun c hc =>
      hplain c (Pattern.mem_letters ((RegularExpression.rmatch_iff_matches' _ _).mp hmatch) c hc)
  rcases cases_of_accepted h harithmetic with hecho | hsleep | hlisted
  · exact hletters hecho (Lists.forall_of_all (by decide +kernel))
  · exact hletters hsleep (Lists.forall_of_all (by decide +kernel))
  · intro c hc hexpansion
    have hforbidden : ∀ c ∈ ['$', '`'], c ≠ '\n' ∧ c ∈ forbidden := Lists.forall_of_all (by decide)
    obtain ⟨hnewline, hmem⟩ := hforbidden c hexpansion
    exact plain_of_whitelisted harmless_agent hlisted c hc hnewline hmem

/-- A letter that ends the string is in no word. -/
theorem not_mem_of_quoted {command : String} (h : Quoted command) :
  '\x00' ∉ command.toList
  := by
  intro hmem
  have hword : '\x00' ∈ ["/bin/bash".toList, "-c".toList, command.toList].flatten
    := List.mem_flatten.mpr ⟨command.toList, by simp, hmem⟩
  rcases mem_of_read h hword (by decide) with hline | hline
  · cases hline
  · exact absurd (List.mem_takeWhile_imp hline) (by decide)

/-- The shell gets an accepted command exactly if the command has no letter that ends a string and
nothing that a backslash makes special. -/
theorem quoted_iff (stod : String → Except String ℚ) (order : List String) (command : String)
    (haccepted : validateCommand stod order command = .ok ⟨⟩)
    (harithmetic : arithmeticPattern.rmatch command.toList = false) :
  Quoted command ↔ '\x00' ∉ command.toList ∧ Inert command.toList
  := by
  constructor
  · intro hquoted
    have hnull := not_mem_of_quoted hquoted
    refine ⟨hnull, ?_⟩
    rw [Quoted, cStr_bashCommand hnull, words_bashCommand] at hquoted
    have hreads := reads_of_read (.inl rfl) hquoted
    generalize hreader : (⟨.double, _, some []⟩ : Reader) = r at hreads
    have htext : ["/bin/bash".toList, "-c".toList, command.toList].flatten
        = taken r ++ command.toList := by
      rw [← hreader]
      simp [taken, pending, text]
    cases hreads with
    | whole hinert _ =>
      rw [← hreader] at hinert
      exact hinert
    | shorter hlength =>
      rw [htext] at hlength
      cases hlength.false
    | fewer hcount =>
      rw [htext] at hcount
      cases hcount.false
    | endsOpen hopen =>
      obtain ⟨hescape, hquote⟩ := hopen
      rw [← hreader] at hescape
      rw [htext] at hquote
      have hboth := List.suffix_of_suffix_length_le (hescape.trans (List.suffix_append _ _)) hquote
        le_rfl
      exact absurd hboth (by decide)
  · rintro ⟨hnull, hinert⟩
    rw [Quoted, cStr_bashCommand hnull, words_bashCommand]
    exact (read_of_inert _ [] (plain_of_accepted haccepted harithmetic)).1 hinert

theorem quoted_echo :
  validateCommand (fun _ => .ok 0) allowedCommands "echo \"a\"" = .ok ⟨⟩ ∧ Quoted "echo \"a\""
  := by
  have haccepted : validateCommand (fun _ => .ok 0) allowedCommands "echo \"a\"" = .ok ⟨⟩ := by
    decide +kernel
  have harithmetic : arithmeticPattern.rmatch "echo \"a\"".toList = false := by decide +kernel
  refine ⟨haccepted, ?_⟩
  exact (quoted_iff _ _ _ haccepted harithmetic).mpr (by decide)

/-- The shell takes the two backslashes for one. -/
theorem not_quoted_backslashes :
  validateCommand (fun _ => .ok 0) allowedCommands "grep a\\\\b" = .ok ⟨⟩
    ∧ arithmeticPattern.rmatch "grep a\\\\b".toList = false
    ∧ words (cStr (bashCommand "grep a\\\\b"))
      = some ["/bin/bash".toList, "-c".toList, "grep a\\b".toList]
    ∧ ¬ Quoted "grep a\\\\b"
  := by
  have hwords : words (cStr (bashCommand "grep a\\\\b"))
      = some ["/bin/bash".toList, "-c".toList, "grep a\\b".toList] := by decide
  refine ⟨by decide +kernel, by decide +kernel, hwords, ?_⟩
  rw [Quoted, hwords]
  decide

end TaskAgent

end Agamemnon
