import Agamemnon.Nats.Discovery

/-!
# The result of a discovery

In every interleaving each peer is probed at most once and at most one worker writes the result,
and when the call returns, the result is that of a peer whose probe has succeeded, if there is one.
The threads are never stuck: from every state that is reached the call can still return, as the
workers run out of time and the one that holds the mutex lets it go.
-/

namespace Agamemnon

open Machine

namespace Nats

/-! ### How far the threads are from the end -/

/-- The steps that are left to a worker when the time has run out. -/
def WorkerPlace.rank : WorkerPlace → ℕ
  | unborn => 4
  | looping => 3
  | taking => 2
  | taken _ => 1
  | probing _ _ => 4
  | claiming _ => 5
  | locking _ => 4
  | writing _ => 3
  | unlocking => 2
  | notifying => 1
  | returned => 0

open WorkerPlace

/-- The steps that are left to the calling thread with `n` workers. -/
def CallerPlace.rank (n : ℕ) : CallerPlace → ℕ
  | starting k => n + 7 + (n - k)
  | locking => n + 6
  | checking false => n + 5
  | sleeping => n + 4
  | checking true => n + 3
  | joining k => 2 + (n - k)
  | collecting => 1
  | returned _ => 0

namespace Search

variable {n : ℕ} {d : Discovery} {s s' : Search n} {a : SearchAction n} {v w : Fin n}

/-- The steps that are left to all threads. -/
def effort (s : Search n) : ℕ :=
  ∑ w, (s.place w).rank + s.caller.rank n

/-- The mutex is locked by a thread that goes on, and all workers are started. -/
structure Lively (s : Search n) : Prop where
  held : s.locked = true → (∃ expired, s.caller = .checking expired) ∨ ∃ w, (s.place w).holds = true
  born : (∃ url, s.caller = .returned url) ∨ ∀ w, s.place w = .unborn → s.caller.awaits w = true

theorem WorkerStep.place_ne_unborn (h : WorkerStep d s w s') :
  s'.place w ≠ .unborn
  := by
  cases h with
  | @drop p idle =>
    simp only [goto, Function.update_self]
    rintro rfl
    cases idle
  | _ => simp [goto]

/-- A step of a worker that has not locked the mutex. -/
theorem Lively.held_of_released {q : WorkerPlace} (h : s.Lively) (hstep : WorkerStep d s w s')
    (hplace : s.place w = q) (hreleased : q.holds = false)
    (hlocked : s'.locked = true → s.locked = true) :
  s'.locked = true → (∃ expired, s'.caller = .checking expired) ∨ ∃ v, (s'.place v).holds = true
  := by
  intro hs'
  rw [hstep.caller]
  refine (h.held (hlocked hs')).imp_right ?_
  rintro ⟨v, hv⟩
  use v
  rw [hstep.place_of_ne, hv]
  rintro rfl
  rw [hplace, hreleased] at hv
  cases hv

theorem Lively.workerStep (h : s.Lively) (hstep : WorkerStep d s w s') :
  s'.Lively
  where
  held := by
    have hstep' := hstep
    cases hstep with
    | drop idle free released lost => exact h.held_of_released hstep' rfl released id
    | take place | pass place | probe place | succeed place | win place =>
      exact h.held_of_released hstep' place rfl id
    | lock place | write place =>
      intro _
      exact .inr ⟨w, by simp [goto, holds]⟩
    | unlock place =>
      intro hlocked
      cases hlocked
  born := by
    rw [hstep.caller]
    refine h.born.imp_right fun hborn v hv => ?_
    by_cases hvw : v = w
    · subst hvw
      cases hstep.place_ne_unborn hv
    · rw [hstep.place_of_ne hvw] at hv
      exact hborn v hv

/-- Outside of its checks the calling thread does not hold the mutex. -/
theorem Lively.held_by_worker {c : CallerPlace} (h : s.Lively) (hcaller : s.caller = c)
    (hc : ∀ expired, c ≠ .checking expired) (hlocked : s.locked = true) :
  ∃ w, (s.place w).holds = true
  := by
  rcases h.held hlocked with ⟨expired, hchecking⟩ | hworker
  · cases hc expired (hcaller.symm.trans hchecking)
  · exact hworker

/-- After the last start all workers are started. -/
theorem Lively.started {c : CallerPlace} (h : s.Lively) (hcaller : s.caller = c)
    (hc : ∀ url, c ≠ .returned url) (hawaits : ∀ w : Fin n, c.awaits w = false) (w : Fin n) :
  s.place w ≠ .unborn
  := by
  intro hw
  rcases h.born with ⟨url, hreturned⟩ | hborn
  · exact hc url (hcaller.symm.trans hreturned)
  · have hawaited := hborn w hw
    rw [hcaller, hawaits w] at hawaited
    cases hawaited

theorem Lively.stepCaller (h : s.Lively) (hstaged : s.Staged) {now : ℤ}
    (hstep : s.stepCaller d now = some s') :
  s'.Lively
  := by
  cases hcaller : s.caller with
  | starting k =>
    have hheld := h.held_by_worker hcaller (by simp)
    simp only [Search.stepCaller, hcaller] at hstep
    split_ifs at hstep with hbelow
    · cases hstep
      have hunborn := hstaged.place_of_starting hcaller hbelow
      constructor
      · intro hlocked
        obtain ⟨v, hv⟩ := hheld hlocked
        refine .inr ⟨v, ?_⟩
        have hne : v ≠ ⟨k, hbelow⟩ := by
          rintro rfl
          rw [hunborn] at hv
          cases hv
        simpa [goto, hne] using hv
      · refine .inr fun v hv => ?_
        rcases place_goto_eq.mp hv with ⟨-, hp⟩ | ⟨hne, hv'⟩
        · cases hp
        rcases h.born with ⟨url, hreturned⟩ | hborn
        · cases hcaller.symm.trans hreturned
        · have hk := hborn v hv'
          rw [hcaller] at hk
          have hle : k ≤ v := of_decide_eq_true hk
          apply decide_eq_true
          apply Nat.lt_of_le_of_ne hle
          exact fun heq => hne (Fin.ext heq.symm)
    · cases hstep
      have hstarted := h.started hcaller (by simp) fun w =>
        decide_eq_false fun hle => hbelow (hle.trans_lt w.isLt)
      exact ⟨fun hlocked => .inr (hheld hlocked), .inr fun w hw => absurd hw (hstarted w)⟩
  | locking | sleeping =>
    have hstarted := h.started hcaller (by simp) fun _ => rfl
    simp only [Search.stepCaller, hcaller] at hstep
    split_ifs at hstep
    cases hstep
    exact ⟨fun _ => .inl ⟨_, rfl⟩, .inr fun w hw => absurd hw (hstarted w)⟩
  | checking expired =>
    have hstarted := h.started hcaller (by simp) fun _ => rfl
    rw [Search.stepCaller, hcaller] at hstep
    cases hstep
    refine ⟨fun hlocked => ?_, .inr fun w hw => absurd hw (hstarted w)⟩
    cases hlocked
  | joining k =>
    have hheld := h.held_by_worker hcaller (by simp)
    have hstarted := h.started hcaller (by simp) fun _ => rfl
    simp only [Search.stepCaller, hcaller] at hstep
    split_ifs at hstep
    · cases hstep
      exact ⟨fun hlocked => .inr (hheld hlocked), .inr fun w hw => absurd hw (hstarted w)⟩
    · cases hstep
      exact ⟨fun hlocked => .inr (hheld hlocked), .inr fun w hw => absurd hw (hstarted w)⟩
  | collecting =>
    have hheld := h.held_by_worker hcaller (by simp)
    simp only [Search.stepCaller, hcaller] at hstep
    split_ifs at hstep
    cases hstep
    exact ⟨fun hlocked => .inr (hheld hlocked), .inl ⟨_, rfl⟩⟩
  | returned url => simp [Search.stepCaller, hcaller] at hstep

/-! ### A step towards the end -/

/-- A worker that moves on to a place nearer to the end. -/
theorem effort_goto {p q : WorkerPlace} (hplace : s.place w = q) (s' : Search n)
    (hs' : s'.place = (s.goto w p).place) (hcaller : s'.caller = s.caller) (h : p.rank < q.rank) :
  s'.effort < s.effort
  := by
  have hsum := sum_update rank s.place w p
  rw [hplace] at hsum
  rw [effort, effort, hs', hcaller]
  simp only [goto]
  omega

/-- A worker that is not done and does not wait for the mutex can go on. -/
theorem exists_stepWorker (hgone : (s.place w).isGone = false)
    (hfree : ∀ i, s.place w = .locking i → s.locked = false) :
  ∃ s', s.act d (.worker w d.deadline false) = some s' ∧ s'.effort < s.effort
  := by
  have htime : d.remainingMs d.deadline = 0 := by simp [Discovery.remainingMs]
  rw [act, stepWorker]
  cases hplace : s.place w with
  | looping | taking =>
    refine ⟨_, rfl, effort_goto hplace _ rfl rfl ?_⟩
    split_ifs <;> simp [rank]
  | taken i =>
    simp only [htime, ↓reduceIte]
    exact ⟨_, rfl, effort_goto hplace _ rfl rfl (by simp [rank])⟩
  | probing i timeout =>
    simp only [Bool.false_eq_true, ↓reduceIte]
    exact ⟨_, rfl, effort_goto hplace _ rfl rfl (by simp [rank])⟩
  | claiming i =>
    simp only
    split_ifs
    · exact ⟨_, rfl, effort_goto hplace _ rfl rfl (by simp [rank])⟩
    · exact ⟨_, rfl, effort_goto hplace _ rfl rfl (by simp [rank])⟩
  | locking i =>
    simp only [hfree i hplace, Bool.false_eq_true, ↓reduceIte]
    exact ⟨_, rfl, effort_goto hplace _ rfl rfl (by simp [rank])⟩
  | writing i | unlocking | notifying =>
    exact ⟨_, rfl, effort_goto hplace _ rfl rfl (by simp [rank])⟩
  | _ =>
    rw [hplace] at hgone
    cases hgone

/-- A step of the calling thread that leaves the workers. -/
theorem effort_caller {c : CallerPlace} (hcaller : s.caller = c) (s' : Search n)
    (hs' : s'.place = s.place) (h : s'.caller.rank n < c.rank n) :
  s'.effort < s.effort
  := by
  rw [effort, effort, hs', hcaller]
  exact Nat.add_lt_add_left h _

/-- Where all workers are done, the mutex is free. -/
theorem Lively.unlocked (h : s.Lively) (hcaller : ∀ expired, s.caller ≠ .checking expired)
    (hgone : ∀ w, (s.place w).isGone = true) :
  s.locked = false
  := by
  rw [Bool.eq_false_iff]
  intro hlocked
  obtain ⟨w, hw⟩ := h.held_by_worker rfl hcaller hlocked
  have := hgone w
  cases hplace : s.place w <;> simp [hplace, isGone, holds] at this hw

/-- A calling thread at its check goes on. -/
theorem exists_stepCaller_of_checking {expired : Bool} (hcaller : s.caller = .checking expired) :
  ∃ s', s.act d (.caller d.deadline) = some s' ∧ s'.effort < s.effort
  := by
  rw [act, stepCaller, hcaller]
  refine ⟨_, rfl, effort_caller hcaller _ rfl ?_⟩
  cases expired with
  | false =>
    dsimp only
    split_ifs <;> simp only [CallerPlace.rank] <;> omega
  | true =>
    simp only [or_true, ↓reduceIte, CallerPlace.rank]
    omega

/-- When no worker is under way, the calling thread goes on. -/
theorem Lively.exists_stepCaller (h : s.Lively) (hstaged : s.Staged)
    (hreturned : ∀ url, s.caller ≠ .returned url)
    (hchecking : ∀ expired, s.caller ≠ .checking expired) (hgone : ∀ w, (s.place w).isGone = true) :
  ∃ s', s.act d (.caller d.deadline) = some s' ∧ s'.effort < s.effort
  := by
  have hlocked := h.unlocked hchecking hgone
  rw [act, Search.stepCaller]
  cases hcaller : s.caller with
  | starting k =>
    dsimp only
    split_ifs with hbelow
    · refine ⟨_, rfl, ?_⟩
      have hunborn := hstaged.place_of_starting hcaller hbelow
      have hsum := sum_update rank s.place ⟨k, hbelow⟩ .looping
      rw [hunborn] at hsum
      simp only [effort, goto, hcaller, CallerPlace.rank, rank] at hsum ⊢
      omega
    · refine ⟨_, rfl, effort_caller hcaller _ rfl ?_⟩
      simp only [CallerPlace.rank]
      omega
  | locking | sleeping | collecting =>
    simp only [hlocked, Bool.false_eq_true, ↓reduceIte]
    exact ⟨_, rfl, effort_caller hcaller _ rfl (by simp [CallerPlace.rank])⟩
  | checking expired => cases hchecking expired hcaller
  | joining k =>
    dsimp only
    split_ifs with hbelow hplace
    · refine ⟨_, rfl, effort_caller hcaller _ rfl ?_⟩
      simp only [CallerPlace.rank]
      omega
    · have hstarted := h.started hcaller (by simp) (fun _ => rfl) ⟨k, hbelow⟩
      have hdone := hgone ⟨k, hbelow⟩
      cases hw : s.place ⟨k, hbelow⟩ <;> simp [hw, isGone] at hplace hstarted hdone
    · refine ⟨_, rfl, effort_caller hcaller _ rfl ?_⟩
      simp only [CallerPlace.rank]
      omega
  | returned url => cases hreturned url hcaller

/-- Until the call returns, some thread can bring it nearer to the end: a worker that is under way,
the thread that holds the mutex for which it waits, or the calling thread. -/
theorem Lively.exists_act (h : s.Lively) (hstaged : s.Staged)
    (hreturned : ∀ url, s.caller ≠ .returned url) :
  ∃ a s', s.act d a = some s' ∧ s'.effort < s.effort
  := by
  by_cases hchecking : ∃ expired, s.caller = .checking expired
  · obtain ⟨expired, hcaller⟩ := hchecking
    exact ⟨_, exists_stepCaller_of_checking hcaller⟩
  rw [not_exists] at hchecking
  by_cases hgone : ∀ w, (s.place w).isGone = true
  · exact ⟨_, h.exists_stepCaller hstaged hreturned hchecking hgone⟩
  cases hlocked : s.locked with
  | false =>
    obtain ⟨w, hw⟩ := not_forall.mp hgone
    exact ⟨_, exists_stepWorker (Bool.eq_false_iff.mpr hw) fun _ _ => hlocked⟩
  | true =>
    obtain ⟨w, hw⟩ := h.held_by_worker rfl hchecking hlocked
    refine ⟨_, exists_stepWorker (w := w) ?_ ?_⟩
    · cases hplace : s.place w <;> simp [hplace, isGone, holds] at hw ⊢
    · intro i hplace
      rw [hplace] at hw
      cases hw

theorem lively_initial (d : Discovery) :
  (initial d : Search n).Lively
  where
  held := fun hlocked => absurd hlocked Bool.false_ne_true
  born := by
    rw [initial]
    dsimp only
    split_ifs
    · exact .inl ⟨_, rfl⟩
    · exact .inr fun w _ => decide_eq_true (Nat.zero_le w)

theorem Lively.act (h : s.Lively) (hstaged : s.Staged) (hact : s.act d a = some s') :
  s'.Lively
  := by
  cases a with
  | caller now => exact h.stepCaller hstaged hact
  | worker w now succeeds => exact h.workerStep (workerStep_of_stepWorker hact)

/-- From every state that is reached the call can still return. -/
theorem exists_returned {actions : List (SearchAction n)}
    (hrun : run (act d) (initial d) actions = some s) :
  ∃ more t url, run (act d) s more = some t ∧ t.caller = .returned url
  := by
  have hkept {s s' : Search n} {a : SearchAction n} (h : s.Staged ∧ s.Lively)
      (hact : s.act d a = some s') : s'.Staged ∧ s'.Lively := ⟨h.1.act hact, h.2.act h.1 hact⟩
  have hnearer {s : Search n} (h : s.Staged ∧ s.Lively)
      (hgoal : ¬ ∃ url, s.caller = .returned url) :
      ∃ a s', s.act d a = some s' ∧ (s'.Staged ∧ s'.Lively) ∧ s'.effort < s.effort := by
    obtain ⟨a, s', hact, hless⟩ := h.2.exists_act h.1 (not_exists.mp hgoal)
    exact ⟨a, s', hact, hkept h hact, hless⟩
  have hstart := run_invariant hkept ⟨(sound_initial d).staged, lively_initial d⟩ hrun
  obtain ⟨more, t, hmore, -, url, hreturned⟩ := exists_run effort hnearer hstart
  exact ⟨more, t, url, hmore, hreturned⟩

/-! ### The call -/

/-- What a state of a call shows: no peer is probed twice, one worker at most has written the
result, a result that is returned is that of a peer whose probe has succeeded, or empty if there is
none, and the call can still return. -/
structure Keeps (d : Discovery) (s : Search n) : Prop where
  once : s.probed.Nodup
  matched : ∀ i ∈ s.probed, i < d.matched.length
  writers : s.writers.length ≤ 1
  proven : ∀ url, s.caller = .returned url →
    url = "" ∨ ∃ i ∈ s.succeeded, i ∈ s.probed ∧ url = d.url i
  empty : ∀ url, s.caller = .returned url → (url ≠ "" ↔ s.succeeded ≠ [])
  returns : ∃ more t url, run (act d) s more = some t ∧ t.caller = .returned url

end Search

/-- Peer discovery returns a peer that has answered, for all peers, patterns, options and times, and
in every interleaving of the threads. -/
theorem discoverNatsUrl_keeps (regexMatch : String → String → Option Bool)
    (peers : List PeerCandidate) (hostnamePattern : String) (natsPort : ℤ)
    (opts : DiscoveryOptions) (now : ℤ) :
  let d := Discovery.ofPeers regexMatch peers hostnamePattern natsPort opts now
  ∀ (actions : List (SearchAction (d.workerCount opts))) (s : Search (d.workerCount opts)),
    run (Search.act d) (Search.initial d) actions = some s → s.Keeps d
  := by
  intro d actions s hrun
  have hsound := Search.sound_of_run hrun
  constructor
  · exact hsound.indexed.once
  · exact fun i hi => (hsound.indexed.below i hi).2
  · exact hsound.contest.length_writers
  · intro url hurl
    refine (hsound.result hurl).1.imp_right ?_
    rintro ⟨i, hi, -, hurl⟩
    exact ⟨i, hi, hsound.proven.probed i hi, hurl⟩
  · exact fun url hurl => (hsound.result hurl).2
  · exact Search.exists_returned hrun

/-- Two peers answer, and the call returns the one whose worker sets the flag first. -/
theorem discoverNatsUrl_keeps_two :
  let peers : List PeerCandidate := [⟨"100.64.0.1", "apollo"⟩, ⟨"100.64.0.2", "hermes"⟩]
  let d := Discovery.ofPeers (fun _ _ => none) peers "" 4222 {} 0
  let first : Fin (d.workerCount {}) := ⟨0, by decide⟩
  let second : Fin (d.workerCount {}) := ⟨1, by decide⟩
  let actions : List (SearchAction (d.workerCount {})) :=
    List.replicate 5 (.caller 0) ++ List.replicate 4 (.worker first 0 true)
      ++ List.replicate 5 (.worker second 0 true) ++ [.worker first 0 true]
      ++ List.replicate 4 (.worker second 0 true) ++ List.replicate 6 (.caller 0)
  ∃ s, run (Search.act d) (Search.initial d) actions = some s
    ∧ s.caller = .returned "nats://100.64.0.2:4222" ∧ s.succeeded = [1, 0] ∧ s.Keeps d
  := by
  intro peers d first second actions
  refine ⟨_, rfl, ?_, rfl, discoverNatsUrl_keeps _ _ _ _ _ _ actions _ rfl⟩
  decide

end Nats

end Agamemnon
