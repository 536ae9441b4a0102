import Agamemnon.Lib.Lists
import Agamemnon.Lib.Numerals
import Agamemnon.Lib.Pattern
import Mathlib.Data.List.Infix
import Mathlib.Data.List.TakeWhile
import Mathlib.Data.Rat.Init

/-!
# Which commands are accepted

A task agent runs a command in a shell if the command matches one of a few patterns, or if its
first word is on a list and its arguments have none of certain letters.  The two checks, of the
agent and of its strategy, differ in the pattern for `sleep` and in how they say no.
-/

namespace Agamemnon

open Pattern
open Numerals (isSpace)

namespace Commands

/-- The first word of a command, as `>>` reads it from a stream. -/
def firstWord (command : List Char) : List Char :=
  (command.dropWhile isSpace).takeWhile fun c => !isSpace c

def digits : List Char :=
  "0123456789".toList

def alphanumerics : List Char :=
  "abcdefghijklmnopqrstuvwxyzABCDEFGHIJKLMNOPQRSTUVWXYZ".toList ++ digits

/-- The pattern `^echo \$\(\([-+*/0-9 ()]+\)\)$`. -/
def arithmeticPattern : RegularExpression Char :=
  word "echo $((".toList
    * (oneOrMore (oneOf ("-+*/".toList ++ digits ++ " ()".toList))
      * word "))".toList)

/-- The pattern `^echo [-a-zA-Z0-9 .,!?'"]+$`. -/
def simpleEchoPattern : RegularExpression Char :=
  word "echo ".toList
    * oneOrMore (oneOf ('-' :: alphanumerics ++ " .,!?'\"".toList))

/-- The pattern `^sleep ([0-9]+(?:\.[0-9]+)?)$`. -/
def sleepPattern : RegularExpression Char :=
  word "sleep ".toList
    * (oneOrMore (oneOf digits)
      * optional (.char '.' * oneOrMore (oneOf digits)))

/-- The group of the pattern for `sleep`. -/
def sleepArgument (command : List Char) : String :=
  String.ofList (command.drop "sleep ".length)

def veryDangerous : List Char :=
  ";|&`$<>!\x7b\x7d[]".toList

/-- The first word is on the list, and the rest of the command is not dangerous.  What is left
of the command is counted from its start, although the first word may stand after spaces. -/
def whitelisted (allowed : List String) (command : List Char) : Bool :=
  let args := command.drop (firstWord command).length
  String.ofList (firstWord command) ∈ allowed
    && !args.any (· ∈ veryDangerous) && !decide (['.', '.'] <:+: args)

end Commands

open Commands

namespace TaskAgent

/-- `ALLOWED_COMMANDS` of the agent. -/
def allowedCommands : List String :=
  ["echo", "cat", "ls", "pwd", "date", "whoami", "uname", "head", "tail", "wc", "grep", "find",
    "bc"]

/-- `TaskAgent::validateCommand`; an exception is given by its text.  The function `stod` is the
one of the standard library, and `order` is the order in which the set of allowed commands is
iterated. -/
def validateCommand (stod : String → Except String ℚ) (order : List String) (command : String) :
    Except String PUnit.{1} :=
  if command = "" then throw "Command cannot be empty"
  else if arithmeticPattern.rmatch command.toList then pure ⟨⟩
  else if simpleEchoPattern.rmatch command.toList then pure ⟨⟩
  else if sleepPattern.rmatch command.toList then do
    let duration ← stod (sleepArgument command.toList)
    if 10 < duration then throw "sleep duration exceeds maximum allowed (10s)" else pure ⟨⟩
  else if whitelisted allowedCommands command.toList then pure ⟨⟩
  else throw ("Command does not match any allowed patterns.\n"
    ++ "Allowed patterns:\n"
    ++ "  1. Arithmetic: echo $((expression))\n"
    ++ "  2. Simple echo: echo <text>\n"
    ++ "  3. sleep <N> where N <= 10\n"
    ++ "  4. Whitelisted commands: " ++ String.intercalate ", " order
    ++ "\nYour command: " ++ command)

end TaskAgent

namespace TaskExecutionStrategy

/-- `ALLOWED_COMMANDS` of the strategy. -/
def allowedCommands : List String :=
  ["date", "whoami", "pwd", "uname", "ls", "cat", "head", "tail", "wc", "echo", "grep", "find",
    "bc"]

/-- `TaskExecutionStrategy::isCommandAllowed`. -/
def isCommandAllowed (command : String) : Bool :=
  if command = "" then false
  else if arithmeticPattern.rmatch command.toList then true
  else if simpleEchoPattern.rmatch command.toList then true
  else whitelisted allowedCommands command.toList

end TaskExecutionStrategy

open TaskExecutionStrategy

/-! ### What a shell makes of a command -/

namespace Commands

/-- The letters that separate commands or start a substitution. -/
def forbidden : List Char :=
  ['\n', ';', '|', '&', '`', '$']

/-- What separates words for a shell. -/
def isBlank (c : Char) : Bool :=
  c = ' ' || c = '\t'

/-- The name of a command. -/
def shellName (command : List Char) : List Char :=
  (command.dropWhile isBlank).takeWhile fun c => !isBlank c

/-- The names of the commands that a shell runs. -/
def shellNames (text : List Char) : List (List Char) :=
  ((text.splitOnP fun c => c ∈ ['\n', ';', '|', '&']).map shellName).filter (· ≠ [])

/-- There is no separator and no substitution in the text, and the only command that a shell
runs is on the list. -/
structure Safe (allowed : List String) (command : List Char) : Prop where
  plain : ∀ c ∈ command, c ∉ forbidden
  single : ∃ name ∈ allowed, shellNames command = [name.toList]

/-- The command is one line, it is not a `sleep`, and around its first word there are no spaces
that a shell does not take for such. -/
structure OneLine (command : List Char) : Prop where
  newline : '\n' ∉ command
  sleep : firstWord command ≠ "sleep".toList
  before : ∀ c ∈ command.takeWhile isSpace, isBlank c = true
  after : ∀ c ∈ ((command.dropWhile isSpace).dropWhile fun c => !isSpace c).head?,
    isBlank c = true

/-! ### The first word -/

variable {c : Char}

theorem isSpace_of_isBlank (h : isBlank c = true) :
  isSpace c = true
  := by
  rw [isBlank, Bool.or_eq_true, decide_eq_true_eq, decide_eq_true_eq] at h
  rcases h with rfl | rfl
  · rfl
  · rfl

theorem not_isBlank (h : isSpace c = false) :
  isBlank c = false
  := by
  by_contra hblank
  rw [Bool.not_eq_false] at hblank
  rw [isSpace_of_isBlank hblank] at h
  contradiction

theorem dropWhile_isBlank :
  ∀ {text : List Char}, (∀ c ∈ text.takeWhile isSpace, isBlank c = true) →
    text.dropWhile isBlank = text.dropWhile isSpace
  | [], _ => rfl
  | c :: cs, h => by
      cases hc : isSpace c with
      | true =>
        rw [List.takeWhile_cons_of_pos hc, List.forall_mem_cons] at h
        rw [List.dropWhile_cons_of_pos h.1, List.dropWhile_cons_of_pos hc]
        apply dropWhile_isBlank h.2
      | false => rw [List.dropWhile_cons_of_neg (by simp [not_isBlank hc]),
          List.dropWhile_cons_of_neg (by simp [hc])]

theorem takeWhile_not_isBlank :
  ∀ {text : List Char},
    (∀ c ∈ (text.dropWhile fun c => !isSpace c).head?, isBlank c = true) →
    (text.takeWhile fun c => !isBlank c) = text.takeWhile fun c => !isSpace c
  | [], _ => rfl
  | c :: cs, h => by
      cases hc : isSpace c with
      | true =>
        rw [List.dropWhile_cons_of_neg (by simp [hc])] at h
        rw [List.takeWhile_cons_of_neg (by simp [h c rfl]),
          List.takeWhile_cons_of_neg (by simp [hc])]
      | false =>
        rw [List.dropWhile_cons_of_pos (by simp [hc])] at h
        rw [List.takeWhile_cons_of_pos (by simp [not_isBlank hc]),
          List.takeWhile_cons_of_pos (by simp [hc]), takeWhile_not_isBlank h]

/-- If a shell sees no space in the name, then there is none before it. -/
theorem isBlank_before :
  ∀ {text : List Char}, (∀ c ∈ shellName text, isSpace c = false) →
    ∀ c ∈ text.takeWhile isSpace, isBlank c = true
  | [], _ => by simp
  | d :: cs, h => by
      cases hd : isSpace d with
      | false =>
        rw [List.takeWhile_cons_of_neg (by simp [hd])]
        simp
      | true =>
        cases hblank : isBlank d with
        | true =>
          rw [shellName, List.dropWhile_cons_of_pos hblank] at h
          rw [List.takeWhile_cons_of_pos hd, List.forall_mem_cons]
          exact ⟨hblank, isBlank_before h⟩
        | false =>
          rw [shellName, List.dropWhile_cons_of_neg (by simp [hblank]),
            List.takeWhile_cons_of_pos (by simp [hblank]), List.forall_mem_cons, hd] at h
          exact absurd h.1 (by decide)

/-- If a shell sees no space in a word, then there is none that it does not take for one right
after it. -/
theorem isBlank_after :
  ∀ {text : List Char}, (∀ c ∈ text.takeWhile fun c => !isBlank c, isSpace c = false) →
    ∀ c ∈ (text.dropWhile fun c => !isSpace c).head?, isBlank c = true
  | [], _ => by simp
  | d :: cs, h => by
      cases hd : isSpace d with
      | false =>
        rw [List.takeWhile_cons_of_pos (by simp [not_isBlank hd]), List.forall_mem_cons] at h
        rw [List.dropWhile_cons_of_pos (by simp [hd])]
        exact isBlank_after h.2
      | true =>
        rw [List.dropWhile_cons_of_neg (by simp [hd])]
        intro c hc
        obtain rfl := Option.some.inj hc
        by_contra hblank
        rw [List.takeWhile_cons_of_pos (by simp [hblank]), List.forall_mem_cons, hd] at h
        exact absurd h.1 (by decide)

/-- A shell and the check read the same first word exactly if there are only blanks around it. -/
theorem shellName_eq_firstWord (hbefore : ∀ c ∈ command.takeWhile isSpace, isBlank c = true)
    (hafter : ∀ c ∈ ((command.dropWhile isSpace).dropWhile fun c => !isSpace c).head?,
      isBlank c = true) :
  shellName command = firstWord command
  := by
  rw [shellName, dropWhile_isBlank hbefore, takeWhile_not_isBlank hafter, firstWord]

theorem around_of_shellName (h : ∀ c ∈ shellName command, isSpace c = false) :
  (∀ c ∈ command.takeWhile isSpace, isBlank c = true)
  ∧ ∀ c ∈ ((command.dropWhile isSpace).dropWhile fun c => !isSpace c).head?, isBlank c = true
  := by
  have hbefore := isBlank_before h
  rw [shellName, dropWhile_isBlank hbefore] at h
  exact ⟨hbefore, isBlank_after h⟩

/-! ### Accepted commands -/

/-- The names on a list are words of harmless letters, and none is `sleep`. -/
structure Harmless (allowed : List String) : Prop where
  letters : ∀ name ∈ allowed, ∀ c ∈ name.toList, isSpace c = false ∧ c ∉ forbidden
  empty : "" ∉ allowed
  sleep : "sleep" ∉ allowed

variable {allowed : List String} {command : List Char}

/-- In a text without separators a shell sees one command. -/
theorem shellNames_of_plain (h : ∀ c ∈ command, c ∉ forbidden) :
  shellNames command = [shellName command].filter (· ≠ [])
  := by
  have hsplit : (command.splitOnP fun c => c ∈ ['\n', ';', '|', '&']) = [command] := by
    apply List.splitOnP_eq_singleton
    intro c hc
    have hplain := h c hc
    simp only [forbidden, List.mem_cons, not_or] at hplain
    simp [hplain]
  rw [shellNames, hsplit]
  rfl

theorem shellName_of_safe (h : Safe allowed command) :
  ∃ name ∈ allowed, shellName command = name.toList
  := by
  obtain ⟨name, hname, hsingle⟩ := h.single
  rw [shellNames_of_plain h.plain, List.filter_singleton, Bool.cond_eq_ite] at hsingle
  split at hsingle
  · exact ⟨name, hname, List.head_eq_of_cons_eq hsingle⟩
  · contradiction

/-- A harmless text with an allowed first word between blanks is safe. -/
theorem safe_of_around (hallowed : Harmless allowed)
    (hword : String.ofList (firstWord command) ∈ allowed) (hplain : ∀ c ∈ command, c ∉ forbidden)
    (hbefore : ∀ c ∈ command.takeWhile isSpace, isBlank c = true)
    (hafter : ∀ c ∈ ((command.dropWhile isSpace).dropWhile fun c => !isSpace c).head?,
      isBlank c = true) :
  Safe allowed command
  := by
  refine ⟨hplain, String.ofList (firstWord command), hword, ?_⟩
  have hne : firstWord command ≠ [] := by
    intro hnil
    rw [hnil] at hword
    exact hallowed.empty hword
  rw [shellNames_of_plain hplain, shellName_eq_firstWord hbefore hafter, List.filter_singleton]
  simp [hne]

/-- What stands before the first word, the word, and what stands after it. -/
theorem firstWord_split (command : List Char) :
  command = command.takeWhile isSpace ++ (firstWord command
    ++ (command.dropWhile isSpace).dropWhile fun c => !isSpace c)
  := by
  rw [firstWord, List.takeWhile_append_dropWhile, List.takeWhile_append_dropWhile]

/-- No dangerous letter of a whitelisted command escapes the check of its arguments. -/
theorem plain_of_whitelisted (hallowed : Harmless allowed)
    (h : whitelisted allowed command = true) :
  ∀ c ∈ command, c ≠ '\n' → c ∉ forbidden
  := by
  simp only [whitelisted, Bool.and_eq_true, decide_eq_true_eq] at h
  obtain ⟨⟨hword, hargs⟩, -⟩ := h
  have hsplit := firstWord_split command
  -- the arguments that are checked end with what stands after the first word
  have hrest : ∀ c ∈ (command.dropWhile isSpace).dropWhile fun c => !isSpace c,
      c ∈ command.drop (firstWord command).length := by
    intro c hc
    nth_rewrite 2 [hsplit]
    rw [← List.append_assoc, List.drop_append_of_le_length (by simp)]
    exact List.mem_append_right _ hc
  have hdangerous : ∀ c ∈ forbidden, c ≠ '\n' → c ∈ veryDangerous := Lists.forall_of_all (by decide)
  have hspace : ∀ c ∈ forbidden, c ≠ '\n' → isSpace c = false := Lists.forall_of_all (by decide)
  intro c hc hnewline hforbidden
  rw [hsplit] at hc
  rcases List.mem_append.mp hc with hc | hc
  · have hc := List.mem_takeWhile_imp hc
    rw [hspace c hforbidden hnewline] at hc
    exact absurd hc Bool.false_ne_true
  · rcases List.mem_append.mp hc with hc | hc
    · apply (hallowed.letters _ hword c _).2 hforbidden
      simpa using hc
    · have hargs : ∀ c ∈ command.drop (firstWord command).length, c ∉ veryDangerous
        := by simpa using hargs
      exact hargs c (hrest c hc) (hdangerous c hforbidden hnewline)

theorem safe_iff_of_whitelisted (hallowed : Harmless allowed)
    (h : whitelisted allowed command = true) :
  Safe allowed command ↔ OneLine command
  := by
  have hword : String.ofList (firstWord command) ∈ allowed := by
    simp only [whitelisted, Bool.and_eq_true, decide_eq_true_eq] at h
    exact h.1.1
  constructor
  · intro hsafe
    obtain ⟨name, hname, heq⟩ := shellName_of_safe hsafe
    have hletters : ∀ c ∈ shellName command, isSpace c = false := by
      rw [heq]
      exact fun c hc => (hallowed.letters name hname c hc).1
    obtain ⟨hbefore, hafter⟩ := around_of_shellName hletters
    refine ⟨fun hmem => hsafe.plain _ hmem (by decide), ?_, hbefore, hafter⟩
    intro hsleep
    rw [hsleep] at hword
    exact hallowed.sleep hword
  · intro hline
    apply safe_of_around hallowed hword _ hline.before hline.after
    intro c hc
    apply plain_of_whitelisted hallowed h c hc
    rintro rfl
    exact hline.newline hc

/-- A simple `echo` is always safe. -/
theorem safe_iff_of_echo (hallowed : Harmless allowed) (hecho : "echo" ∈ allowed)
    (h : simpleEchoPattern.rmatch command = true) :
  Safe allowed command ↔ OneLine command
  := by
  have hmatch := (RegularExpression.rmatch_iff_matches' _ _).mp h
  have hplain : ∀ c ∈ command, c ∉ forbidden := by
    have hletters : ∀ c ∈ letters simpleEchoPattern, c ∉ forbidden
      := Lists.forall_of_all (by decide +kernel)
    exact fun c hc => hletters c (mem_letters hmatch c hc)
  obtain ⟨text, -, rfl⟩ := exists_of_word_mul hmatch
  have hbefore : ∀ c ∈ ("echo ".toList ++ text).takeWhile isSpace, isBlank c = true := nofun
  have hafter : ∀ c ∈ ((("echo ".toList ++ text).dropWhile isSpace).dropWhile
      fun c => !isSpace c).head?, isBlank c = true := by
    intro c hc
    obtain rfl := Option.some.inj hc
    rfl
  have hline : OneLine ("echo ".toList ++ text)
    := ⟨fun hmem => hplain _ hmem (by decide), nofun, hbefore, hafter⟩
  exact iff_of_true (safe_of_around hallowed hecho hplain hbefore hafter) hline

/-- A `sleep` is not on any list. -/
theorem safe_iff_of_sleep (hallowed : Harmless allowed) (h : sleepPattern.rmatch command = true) :
  Safe allowed command ↔ OneLine command
  := by
  obtain ⟨text, -, rfl⟩ := exists_of_word_mul
    ((RegularExpression.rmatch_iff_matches' _ _).mp h)
  apply iff_of_false
  · intro hsafe
    obtain ⟨name, hname, heq⟩ := shellName_of_safe hsafe
    apply hallowed.sleep
    have hsleep : name = "sleep" := by
      apply String.toList_inj.mp
      exact heq.symm
    exact hsleep ▸ hname
  · exact fun hline => hline.sleep rfl

theorem letters_of_all (h : (allowed.all fun name => name.toList.all fun c =>
    decide (isSpace c = false ∧ c ∉ forbidden)) = true) :
  ∀ name ∈ allowed, ∀ c ∈ name.toList, isSpace c = false ∧ c ∉ forbidden
  := by
  intro name hname
  apply Lists.forall_of_all
  exact List.all_eq_true.mp h name hname

theorem harmless_agent :
  Harmless TaskAgent.allowedCommands
  where
  letters := letters_of_all (by decide)
  empty := by decide
  sleep := by decide

theorem harmless_strategy :
  Harmless allowedCommands
  where
  letters := letters_of_all (by decide)
  empty := by decide
  sleep := by decide

/-- An accepted command that is not an arithmetic `echo` is one of three kinds. -/
theorem cases_of_accepted {stod : String → Except String ℚ} {order : List String}
    {command : String} (h : TaskAgent.validateCommand stod order command = .ok ⟨⟩)
    (harithmetic : arithmeticPattern.rmatch command.toList = false) :
  simpleEchoPattern.rmatch command.toList = true ∨ sleepPattern.rmatch command.toList = true
    ∨ whitelisted TaskAgent.allowedCommands command.toList = true
  := by
  rw [TaskAgent.validateCommand, harithmetic] at h
  split at h
  · contradiction
  · split at h
    · contradiction
    · split at h
      · left
        assumption
      · right
        split at h
        · left
          assumption
        · right
          split at h
          · assumption
          · contradiction

/-- Of the commands that are accepted and are not an arithmetic `echo`, exactly those on one line
that are not a `sleep` and whose first word stands between blanks are safe. -/
theorem accepted_safe_iff (stod : String → Except String ℚ) (order : List String)
    (command : String) (harithmetic : arithmeticPattern.rmatch command.toList = false) :
  (TaskAgent.validateCommand stod order command = .ok ⟨⟩ →
    (Safe TaskAgent.allowedCommands command.toList ↔ OneLine command.toList))
  ∧ (isCommandAllowed command = true →
    (Safe allowedCommands command.toList ↔ OneLine command.toList))
  := by
  constructor
  · intro h
    rcases cases_of_accepted h harithmetic with hecho | hsleep | hlisted
    · exact safe_iff_of_echo harmless_agent (by decide) hecho
    · exact safe_iff_of_sleep harmless_agent hsleep
    · exact safe_iff_of_whitelisted harmless_agent hlisted
  · intro h
    rw [isCommandAllowed, harithmetic] at h
    split at h
    · contradiction
    · split at h
      · contradiction
      · split at h
        · rename_i hecho
          exact safe_iff_of_echo harmless_strategy (by decide) hecho
        · exact safe_iff_of_whitelisted harmless_strategy h

theorem accepted_safe_listing :
  TaskAgent.validateCommand (fun _ => .ok 0) TaskAgent.allowedCommands "ls -l" = .ok ⟨⟩
  ∧ isCommandAllowed "ls -l" = true
  ∧ Safe TaskAgent.allowedCommands "ls -l".toList
  ∧ Safe allowedCommands "ls -l".toList
  := by
  have hagent : TaskAgent.validateCommand (fun _ => .ok 0) TaskAgent.allowedCommands "ls -l"
      = .ok ⟨⟩ := by decide +kernel
  have hstrategy : isCommandAllowed "ls -l" = true := by decide +kernel
  have hline : OneLine "ls -l".toList := by
    refine ⟨by decide, by decide, Lists.forall_of_all (by decide), ?_⟩
    intro c hc
    obtain rfl : ' ' = c := Option.some.inj hc
    rfl
  obtain ⟨hsafe, hsafe'⟩ := accepted_safe_iff (fun _ => .ok 0) TaskAgent.allowedCommands "ls -l"
    (by decide +kernel)
  exact ⟨hagent, hstrategy, (hsafe hagent).mpr hline, (hsafe' hstrategy).mpr hline⟩

/-- Both checks accept a command with a second line, and a shell runs the command there. -/
theorem accepted_secondLine :
  TaskAgent.validateCommand (fun _ => .ok 0) TaskAgent.allowedCommands "ls\nrm x" = .ok ⟨⟩
  ∧ isCommandAllowed "ls\nrm x" = true
  ∧ arithmeticPattern.rmatch "ls\nrm x".toList = false
  ∧ '\n' ∈ "ls\nrm x".toList ∧ shellNames "ls\nrm x".toList = ["ls".toList, "rm".toList]
  ∧ "rm" ∉ TaskAgent.allowedCommands ∧ "rm" ∉ allowedCommands
  := by
  refine ⟨?_, ?_, ?_, by decide, by decide +kernel, by decide, by decide⟩
  · decide +kernel
  · decide +kernel
  · decide +kernel

end Commands

end Agamemnon
