import Agamemnon.Github.Retry
import Agamemnon.Store.Loading

/-!
# Listing the issues page by page

`list_issues` reads the issues in pages of 100 until a page is not full.  A page that fails ends the
loop as well, and the issues of the pages before it are returned as if they were all: the list is
complete exactly if no page with issues fails (`allOrNothing_iff`).
-/

namespace Agamemnon

namespace CurlGitHubClient

/-! ### The client -/

/-- `do_get`, when the attempts to get a URL end as `net` says. -/
def doGet (net : String → ℕ → Outcome) (url : String) : Except String Response :=
  (withRetry (net url)).result

/-- The URL of a page of issues. -/
def issuesUrl (repo label : String) (page : ℕ) : String :=
  "https://api.github.com/repos/" ++ repo ++ "/issues?state=open&labels=" ++ label
    ++ "&per_page=100&page=" ++ toString page

variable (parse : String → Option Json)

/-- The issues of a page, or none if the loop is left there. -/
def readPage : Except String Response → Option (List Json)
  | .error _ => none
  | .ok resp =>
      if resp.status ≠ 200 then none
      else
        match parse resp.body with
        | none => none
        | some (.array []) => none
        | some (.array issues) => some issues
        | some _ => none

/-- The loop of `list_issues`, and the list that it returns or the text that it throws.  There is
no result after the last page number that is an `int`. -/
def listFrom (get : ℕ → Except String Response) :
    (fuel page : ℕ) → (results : List Json) → Option (Except String (List Json))
  | 0, _, _ => none
  | fuel + 1, page, results =>
      match readPage parse (get page) with
      | none => some (.ok results)
      | some issues =>
          if issues.length < 100 then some (.ok (results ++ issues))
          else if page < Numerals.intMax then listFrom get fuel (page + 1) (results ++ issues)
          else none

/-- `list_issues`. -/
def listIssues (net : String → ℕ → Outcome) (repo label : String) (fuel : ℕ) :
    Option (Except String (List Json)) :=
  listFrom parse (fun page => doGet net (issuesUrl repo label page)) fuel 1 []

/-! ### The server -/

/-- The answer holds a page of the issues. -/
def Serves (issues : List Json) (page : ℕ) (answer : Except String Response) : Prop :=
  ∃ resp, answer = .ok resp ∧ resp.status = 200
    ∧ parse resp.body = some (.array ((issues.drop (100 * (page - 1))).take 100))

/-- The answer is an exception, has another status, or does not hold an array. -/
def Fails (answer : Except String Response) : Prop :=
  ∀ resp, answer = .ok resp → resp.status = 200 → ∀ elements,
    parse resp.body ≠ some (.array elements)

/-- A server with a list of issues, which answers each request for a page, after the retries, with
that page or with a failure. -/
structure IssueServer (repo label : String) where
  issues : List Json
  net : String → ℕ → Outcome
  answers : ∀ page, 0 < page →
    Serves parse issues page (doGet net (issuesUrl repo label page))
      ∨ Fails parse (doGet net (issuesUrl repo label page))

/-- The listing ends, and the list is returned as a whole, or an exception is thrown. -/
def AllOrNothing (issues : List Json) (listing : ℕ → Option (Except String (List Json))) : Prop :=
  ∃ enough outcome, (∀ fuel, enough ≤ fuel → listing fuel = some outcome)
    ∧ (outcome = .ok issues ∨ ∃ what, outcome = .error what)

variable {parse}

/-- The page fails after the retries. -/
def IssueServer.FailsAt {repo label : String}
    (server : IssueServer parse repo label) (page : ℕ) : Prop :=
  Fails parse (doGet server.net (issuesUrl repo label page))

/-! ### The loop -/

variable {issues : List Json} {page : ℕ}

section Loop

variable {answer : Except String Response} {get : ℕ → Except String Response} {fuel p : ℕ}
  {results : List Json}

theorem readPage_of_fails (h : Fails parse answer) :
  readPage parse answer = none
  := by
  cases answer with
  | error what => rfl
  | ok resp =>
    rw [readPage]
    split_ifs with hstatus
    · rfl
    · have hno := h resp rfl (not_not.mp hstatus)
      split <;> simp_all

theorem readPage_of_serves (h : Serves parse issues (p + 1) answer) :
  readPage parse answer
    = if issues.length ≤ 100 * p then none else some ((issues.drop (100 * p)).take 100)
  := by
  obtain ⟨resp, rfl, hstatus, hparse⟩ := h
  rw [Nat.add_sub_cancel] at hparse
  simp only [readPage, hstatus, ne_eq, not_true_eq_false, ↓reduceIte, hparse]
  have hlength : ((issues.drop (100 * p)).take 100).length = min 100 (issues.length - 100 * p)
    := by rw [List.length_take, List.length_drop]
  cases hpage : (issues.drop (100 * p)).take 100 with
  | nil =>
    rw [hpage, List.length_nil] at hlength
    rw [if_pos (by omega)]
  | cons issue rest =>
    rw [hpage, List.length_cons] at hlength
    rw [if_neg (by omega)]

theorem Serves.not_fails (h : Serves parse issues page answer) :
  ¬ Fails parse answer
  := by
  obtain ⟨resp, hanswer, hstatus, hparse⟩ := h
  exact fun hfails => hfails resp hanswer hstatus _ hparse

/-- A page that fails ends the list. -/
theorem listFrom_of_fails (h : Fails parse (get page)) :
  listFrom parse get (fuel + 1) page results = some (.ok results)
  := by rw [listFrom, readPage_of_fails h]

/-- With the last page the list is complete, and another page adds its issues. -/
theorem listFrom_of_serves (h : Serves parse issues (p + 1) (get (p + 1))) :
  listFrom parse get (fuel + 1) (p + 1) (issues.take (100 * p))
    = if issues.length < 100 * (p + 1) then some (.ok issues)
      else if p + 1 < Numerals.intMax then
        listFrom parse get fuel (p + 1 + 1) (issues.take (100 * (p + 1)))
      else none
  := by
  have hnext : issues.take (100 * p) ++ (issues.drop (100 * p)).take 100
      = issues.take (100 * (p + 1)) := by rw [← List.take_add, Nat.mul_succ]
  have hlength : ((issues.drop (100 * p)).take 100).length = min 100 (issues.length - 100 * p)
    := by rw [List.length_take, List.length_drop]
  rw [listFrom, readPage_of_serves h]
  by_cases hdone : issues.length ≤ 100 * p
  · rw [if_pos hdone, if_pos (by omega)]
    dsimp only
    rw [List.take_of_length_le hdone]
  rw [if_neg hdone]
  dsimp only
  rw [hlength, hnext]
  by_cases hlast : issues.length < 100 * (p + 1)
  · rw [if_pos (by omega), if_pos hlast, List.take_of_length_le hlast.le]
  · rw [if_neg (by omega), if_neg hlast]

/-- The result does not depend on the fuel. -/
theorem listFrom_of_le {fuel' : ℕ} {outcome : Except String (List Json)} (hle : fuel ≤ fuel')
    (h : listFrom parse get fuel page results = some outcome) :
  listFrom parse get fuel' page results = some outcome
  := by
  induction fuel generalizing fuel' page results with
  | zero => cases h
  | succ fuel ih =>
    obtain ⟨more, rfl⟩ : ∃ more, fuel' = more + 1 := Nat.exists_eq_add_one_of_ne_zero (by omega)
    rw [listFrom] at h ⊢
    cases hread : readPage parse (get page) with
    | none =>
      rw [hread] at h
      exact h
    | some issues =>
      rw [hread] at h
      dsimp only at h ⊢
      split_ifs at h ⊢
      · exact h
      · exact ih (Nat.le_of_succ_le_succ hle) h

/-- The loop throws nothing. -/
theorem listFrom_ne_error {what : String} :
  listFrom parse get fuel page results ≠ some (.error what)
  := by
  induction fuel generalizing page results with
  | zero => nofun
  | succ fuel ih =>
    rw [listFrom]
    cases readPage parse (get page) with
    | none => nofun
    | some issues =>
      dsimp only
      split_ifs
      · nofun
      · exact ih
      · nofun

/-- If each page with issues is served, the loop returns all of them.  The induction is on the pages
that are left. -/
theorem exists_listFrom_of_served {m : ℕ}
    (hanswers : ∀ page, 0 < page → Serves parse issues page (get page) ∨ Fails parse (get page))
    (hserved : ∀ page, 0 < page → 100 * (page - 1) < issues.length → ¬ Fails parse (get page))
    (hlength : issues.length < 100 * Numerals.intMax) (hm : issues.length ≤ 100 * (p + m)) :
  ∃ fuel, listFrom parse get fuel (p + 1) (issues.take (100 * p)) = some (.ok issues)
  := by
  induction m generalizing p with
  | zero =>
    use 1
    rcases hanswers (p + 1) (Nat.succ_pos p) with h | h
    · rw [listFrom_of_serves h, if_pos (by omega)]
    · rw [Nat.add_zero] at hm
      rw [listFrom_of_fails h, List.take_of_length_le hm]
  | succ m ih =>
    obtain ⟨fuel, hfuel⟩ := @ih (p + 1) (by omega)
    rcases hanswers (p + 1) (Nat.succ_pos p) with h | h
    · use fuel + 1
      rw [listFrom_of_serves h]
      split_ifs with hlast hpage
      · rfl
      · exact hfuel
      · omega
    · use 1
      have hdone : ¬ 100 * p < issues.length
        := fun hmore => hserved (p + 1) (Nat.succ_pos p) hmore h
      rw [listFrom_of_fails h, List.take_of_length_le (Nat.le_of_not_lt hdone)]

/-- If the loop returns all issues, each page with issues that is left is served. -/
theorem served_of_listFrom
    (hanswers : ∀ page, 0 < page → Serves parse issues page (get page) ∨ Fails parse (get page))
    (hp : p < Numerals.intMax)
    (h : listFrom parse get fuel (p + 1) (issues.take (100 * p)) = some (.ok issues)) :
  issues.length < 100 * Numerals.intMax
    ∧ ∀ page, p < page → 100 * (page - 1) < issues.length → ¬ Fails parse (get page)
  := by
  induction fuel generalizing p with
  | zero => cases h
  | succ fuel ih =>
    rcases hanswers (p + 1) (Nat.succ_pos p) with hpage | hpage
    · rw [listFrom_of_serves hpage] at h
      split_ifs at h with hlast hnext
      · refine ⟨by omega, fun page hlater hmore => ?_⟩
        obtain rfl : page = p + 1 := by omega
        exact hpage.not_fails
      · obtain ⟨hlength, hserved⟩ := ih hnext h
        refine ⟨hlength, fun page hlater hmore => ?_⟩
        rcases Nat.lt_or_eq_of_le (Nat.succ_le_of_lt hlater) with hlater | rfl
        · exact hserved page hlater hmore
        · exact hpage.not_fails
    · rw [listFrom_of_fails hpage, Option.some_inj, Except.ok.injEq] at h
      have hdone := congrArg List.length h
      rw [List.length_take] at hdone
      exact ⟨by omega, fun page hlater hmore => by omega⟩

end Loop

/-! ### The list -/

variable {repo label : String}

/-- The list is complete, or an exception is thrown, exactly if no page with issues fails and the
number of the last page is an `int`. -/
theorem allOrNothing_iff (server : IssueServer parse repo label) :
  AllOrNothing server.issues (listIssues parse server.net repo label)
    ↔ server.issues.length < 100 * Numerals.intMax
      ∧ ∀ page, 0 < page → 100 * (page - 1) < server.issues.length → ¬ server.FailsAt page
  := by
  constructor
  · rintro ⟨enough, outcome, hlist, rfl | ⟨what, rfl⟩⟩
    · exact served_of_listFrom server.answers (by decide) (hlist enough le_rfl)
    · cases listFrom_ne_error (hlist enough le_rfl)
  · rintro ⟨hlength, hserved⟩
    obtain ⟨fuel, hfuel⟩ := exists_listFrom_of_served (p := 0) (m := server.issues.length)
      server.answers hserved hlength (by omega)
    exact ⟨fuel, _, fun _ hle => listFrom_of_le hle hfuel, .inl rfl⟩

theorem doGet_of_response {net : String → ℕ → Outcome} {url : String} {resp : Response}
    (h : net url 0 = .response resp) (hstatus : isTransientStatus resp.status = false) :
  doGet net url = .ok resp
  := by rw [doGet, withRetry, retryFrom_of_response h hstatus]

theorem issuesUrl_inj {p q : ℕ} :
  issuesUrl repo label p = issuesUrl repo label q ↔ p = q
  := (String.append_right_inj _).trans Numerals.toString_inj

/-- The first page of the issues of agents is sent, and all others are refused. -/
def refuseLater (issues : List Json) (url : String) (_ : ℕ) : Outcome :=
  if url = issuesUrl "owner/repo" "agamemnon-agent" 1 then
    .response { status := 200, body := Json.print (.array (issues.take 100)) }
  else .response { status := 403 }

theorem serves_refuseLater (hproper : ∀ issue ∈ issues, issue.Proper) :
  Serves Json.read issues 1
    (doGet (refuseLater issues) (issuesUrl "owner/repo" "agamemnon-agent" 1))
  := by
  refine ⟨_, doGet_of_response (if_pos rfl) rfl, rfl, Json.codec.parse_dump (.array ?_)⟩
  exact fun issue hissue => hproper issue (List.mem_of_mem_take hissue)

theorem fails_refuseLater (h : page ≠ 1) :
  Fails Json.read
    (doGet (refuseLater issues) (issuesUrl "owner/repo" "agamemnon-agent" page))
  := by
  rw [doGet_of_response (if_neg (issuesUrl_inj.not.mpr h)) rfl]
  rintro resp ⟨⟩ hstatus
  cases hstatus

/-- The issues with the numbers up to 100. -/
def manyIssues : List Json :=
  (List.range 101).map fun n : ℕ => .object [("number", .integer n)]

theorem proper_manyIssues :
  ∀ issue ∈ manyIssues, issue.Proper
  := by
  intro issue hissue
  obtain ⟨n, hn, rfl⟩ := List.mem_map.mp hissue
  rw [List.mem_range] at hn
  apply Json.Proper.object (List.pairwise_singleton _ _)
  rw [List.forall_mem_singleton]
  exact .integer (by omega) (by omega)

/-- A server that refuses all pages but the first. -/
def refusingServer : IssueServer Json.read "owner/repo" "agamemnon-agent" where
  issues := manyIssues
  net := refuseLater manyIssues
  answers := by
    intro page _
    by_cases h : page = 1
    · rw [h]
      exact .inl (serves_refuseLater proper_manyIssues)
    · exact .inr (fails_refuseLater h)

/-- With 101 issues the first 100 are returned as the whole list. -/
theorem not_allOrNothing_refusing :
  let listing := listIssues Json.read refusingServer.net "owner/repo" "agamemnon-agent"
  listing 2 = some (.ok (manyIssues.take 100)) ∧ ¬ AllOrNothing manyIssues listing
  := by
  intro listing
  have hlength : manyIssues.length = 101 := by rw [manyIssues, List.length_map, List.length_range]
  have hlisting : listing 2 = some (.ok (manyIssues.take 100))
    := by
    apply (listFrom_of_serves (p := 0) (serves_refuseLater proper_manyIssues)).trans
    rw [if_neg (by omega), if_pos (by decide)]
    apply listFrom_of_fails (fails_refuseLater (by decide))
  refine ⟨hlisting, ?_⟩
  rintro ⟨enough, outcome, hlist, rfl | ⟨what, rfl⟩⟩
  · have hserved := served_of_listFrom refusingServer.answers (by decide) (hlist enough le_rfl)
    apply hserved.2 2 (by decide) _ (fails_refuseLater (by decide))
    change 100 < manyIssues.length
    omega
  · exact listFrom_ne_error (hlist enough le_rfl)

end CurlGitHubClient

end Agamemnon
