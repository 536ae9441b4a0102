import Agamemnon.Nats.Discovery
import Agamemnon.Plan.ImplRef

/-!
# The peers of the tailnet

`enumerate_tailscale_peers` takes one address from each peer: the first that `is_tailscale_ip`
accepts, except the first such address of the host itself.  The check reads a number behind `100.`
as `std::stoi` does and looks at nothing behind the dot that follows.  So the candidates are
addresses of the tailnet and none of the host exactly if the address that leads the list of a peer
is written in full, and is not one of the further addresses of the host (`onlyTailnet_iff`).
-/

namespace Agamemnon

namespace Nats

open Lists (First first_cons not_first_nil)

/-- `is_tailscale_ip`. -/
def isTailscaleIp (ip : String) : Bool :=
  if ip = "127.0.0.1" then true
  else if "100.".toList.isPrefixOf ip.toList = false then false
  else
    let rest := ip.toList.drop 4
    if '.' ∉ rest then false
    else
      match stoi (rest.takeWhile (· ≠ '.')) with
      | .error _ => false
      | .ok second => 64 ≤ second ∧ second ≤ 127

/-- The elements of `TailscaleIPs`, if this is an array. -/
def tailscaleIps (entry : Json) : Option (List Json) :=
  match entry.get? "TailscaleIPs" with
  | some (.array ips) => some ips
  | _ => none

/-- The loop over the addresses of an entry: the first one that is accepted and not left out. -/
def firstAddress (selfIp : String) : List Json → Except Exn (Option String)
  | [] => .ok none
  | v :: vs => do
      let ip ← v.getString
      if isTailscaleIp ip = true ∧ ¬ (selfIp ≠ "" ∧ ip = selfIp) then return some ip
      else firstAddress selfIp vs

/-- The addresses of the host. -/
def selfIps (root : Json) : List Json :=
  ((root.get? "Self").bind tailscaleIps).getD []

/-- `self_ip`. -/
def selfIp (root : Json) : Except Exn String := do
  return (← firstAddress "" (selfIps root)).getD ""

/-- What a peer contributes. -/
def peerCandidate (selfIp : String) (peer : Json) : Except Exn (Option PeerCandidate) :=
  match tailscaleIps peer with
  | none => .ok none
  | some ips => do
      let hostname ← peer.valueString "HostName" ""
      let ip ← firstAddress selfIp ips
      return ip.map (⟨·, hostname⟩)

def peerEntries (root : Json) : List Json :=
  match root.get? "Peer" with
  | some (.object members) => members.map Prod.snd
  | _ => []

/-- The loop over the peers.  An exception ends it, and what has been collected is returned. -/
def collect (selfIp : String) : List Json → List PeerCandidate
  | [] => []
  | peer :: peers =>
      match peerCandidate selfIp peer with
      | .error _ => []
      | .ok none => collect selfIp peers
      | .ok (some c) => c :: collect selfIp peers

/-- The status that is read, where `status` is what `run_tailscale_status` returns. -/
def statusRoot (parse : String → Option Json) (status statusJson : String) : Option Json :=
  let text := if statusJson = "" then status else statusJson
  if text = "" then none else parse text

/-- `enumerate_tailscale_peers`. -/
def enumerateTailscalePeers (parse : String → Option Json) (status statusJson : String) :
    List PeerCandidate :=
  match statusRoot parse status statusJson with
  | none => []
  | some root =>
      match selfIp root with
      | .error _ => []
      | .ok selfIp => collect selfIp (peerEntries root)

/-! ### What is collected -/

/-- The loops go on behind this value: it is a text that is no address, or the address that is left
out. -/
def Passed (self : String) (v : Json) : Prop :=
  ∃ ip, v = .string ip ∧ (isTailscaleIp ip = false ∨ ip = self)

/-- The address is the first in the list that is accepted and not left out. -/
def Leads (self ip : String) (ips : List Json) : Prop :=
  First (Passed self) (fun v => v = .string ip ∧ isTailscaleIp ip = true ∧ ip ≠ self) ips

variable {self ip : String} {ips : List Json}

/-- The address of a peer is one of the tailnet and not that of the server. -/
theorem Leads.accepted (h : Leads self ip ips) :
  .string ip ∈ ips ∧ isTailscaleIp ip = true ∧ ip ≠ self
  := by
  obtain ⟨before, v, after, rfl, -, rfl, hip⟩ := h
  exact ⟨List.mem_append_right _ List.mem_cons_self, hip⟩

/-- What the loop over the addresses finds, unless it meets a value that is not a text. -/
theorem firstAddress_iff (self : String) (ips : List Json) :
  (∀ ip, firstAddress self ips = .ok (some ip) ↔ Leads self ip ips)
    ∧ (firstAddress self ips = .ok none ↔ ∀ v ∈ ips, Passed self v)
  := by
  induction ips with
  | nil =>
    constructor
    · intro ip
      exact iff_of_false (fun h => nomatch h) not_first_nil
    · simp [firstAddress]
  | cons v vs ih =>
    simp only [Leads, first_cons, List.forall_mem_cons]
    cases v with
    | string s =>
      have hempty : isTailscaleIp "" = false := by decide
      have hpassed : Passed self (.string s) ↔ isTailscaleIp s = false ∨ s = self := by
        simp [Passed]
      have hstep : firstAddress self (.string s :: vs)
          = if isTailscaleIp s = true ∧ ¬ (self ≠ "" ∧ s = self) then .ok (some s)
            else firstAddress self vs := rfl
      rw [hstep]
      split_ifs with htaken
      · have hne : s ≠ self := by
          rintro rfl
          apply htaken.2
          refine ⟨?_, rfl⟩
          rintro rfl
          exact Bool.false_ne_true (hempty.symm.trans htaken.1)
        simp [hpassed, htaken.1, hne]
      · have hself : isTailscaleIp s = false ∨ s = self := by
          by_contra hnot
          rw [not_or, Bool.not_eq_false] at hnot
          exact htaken ⟨hnot.1, fun h => hnot.2 h.2⟩
        refine ⟨fun ip => ?_, ?_⟩
        · rw [ih.1, hpassed, and_iff_right hself, or_iff_right]
          · rfl
          · rintro ⟨⟨⟩, haccepted, hne⟩
            exact htaken ⟨haccepted, fun h => hne h.2⟩
        · rw [ih.2, hpassed, and_iff_right hself]
    | _ =>
      constructor
      · intro ip
        apply iff_of_false (fun h => nomatch h)
        rintro (⟨⟨⟩, -⟩ | ⟨⟨_, ⟨⟩, -⟩, -⟩)
      · apply iff_of_false (fun h => nomatch h)
        rintro ⟨⟨_, ⟨⟩, -⟩, -⟩

/-- The host name of a peer is a text, if there is one. -/
def Named (peer : Json) : Prop :=
  ∀ v ∈ peer.get? "HostName", ∃ name, v = .string name

/-- A peer with a list of addresses that this one leads. -/
def Offers (self ip : String) (peer : Json) : Prop :=
  Named peer ∧ ∃ ips, tailscaleIps peer = some ips ∧ Leads self ip ips

/-- An entry that raises no exception: there is no list of addresses, or it is led by one or has
nothing but texts. -/
def WellTyped (self : String) (peer : Json) : Prop :=
  ∀ ips, tailscaleIps peer = some ips →
    Named peer ∧ ((∃ ip, Leads self ip ips) ∨ ∀ v ∈ ips, Passed self v)

variable {peer : Json}

/-- A peer with addresses is named if its host name can be read. -/
theorem named_iff (hips : tailscaleIps peer = some ips) :
  Named peer ↔ ∃ name, peer.valueString "HostName" "" = .ok name
  := by
  cases peer with
  | object members =>
    cases hname : members.lookup "HostName" with
    | none => simp [Named, Json.get?, Json.valueString, Json.valueWith, hname]
    | some v =>
      cases v <;> simp [Named, Json.get?, Json.valueString, Json.valueWith, hname, Json.getString]
  | _ => cases hips

/-- What a peer contributes, unless its entry raises an exception. -/
theorem peerCandidate_iff (self : String) (peer : Json) :
  (∀ ip, (∃ name, peerCandidate self peer = .ok (some ⟨ip, name⟩)) ↔ Offers self ip peer)
    ∧ ((∃ c, peerCandidate self peer = .ok c) ↔ WellTyped self peer)
  := by
  rw [peerCandidate]
  cases hips : tailscaleIps peer with
  | none => simp [Offers, WellTyped, hips]
  | some ips =>
    obtain ⟨hsome, hnone⟩ := firstAddress_iff self ips
    simp only [Offers, WellTyped, hips, Option.some.injEq, forall_eq', exists_eq_left', ← hsome,
      ← hnone, named_iff hips]
    cases peer.valueString "HostName" "" with
    | error e => simp [bind, Except.bind]
    | ok name =>
      cases firstAddress self ips with
      | error e => simp [bind, Except.bind]
      | ok o => cases o <;> simp [bind, Except.bind, pure, Except.pure]

/-- The candidates are the addresses that a peer offers with only well-typed entries before it. -/
theorem mem_collect :
  ∀ {peers : List Json}, (∃ c ∈ collect self peers, c.tailscaleIp = ip)
    ↔ First (WellTyped self) (Offers self ip) peers
  | [] => by simp [collect, not_first_nil]
  | peer :: peers => by
      obtain ⟨hoffers, htyped⟩ := peerCandidate_iff self peer
      rw [first_cons, ← mem_collect, ← hoffers, ← htyped, collect]
      cases peerCandidate self peer with
      | error e => simp
      | ok o =>
        cases o with
        | none => simp
        | some c =>
          obtain ⟨ip', name⟩ := c
          simp

/-- The address of the host that is left out, and what its list has behind it. -/
inductive OwnAddress (root : Json) : String → List Json → Prop
  | first {before others : List Json} {self : String}
      (list : selfIps root = before ++ .string self :: others)
      (passed : ∀ v ∈ before, Passed "" v) (accepted : isTailscaleIp self = true) :
      OwnAddress root self others
  | none (passed : ∀ v ∈ selfIps root, Passed "" v) : OwnAddress root "" []

/-- No text that the loop over the addresses of the host has passed is accepted. -/
theorem Passed.refused {v : Json} (h : Passed "" v) (haccepted : isTailscaleIp ip = true) :
  v ≠ .string ip
  := by
  rintro rfl
  obtain ⟨_, ⟨⟩, hrefused | rfl⟩ := h
  · exact Bool.false_ne_true (hrefused.symm.trans haccepted)
  · exact absurd haccepted (by decide)

/-- The address of the server is the first one that is accepted, if there is one. -/
theorem exists_ownAddress {root : Json} (h : selfIp root = .ok self) :
  ∃ others, OwnAddress root self others
  := by
  obtain ⟨hsome, hnone⟩ := firstAddress_iff "" (selfIps root)
  obtain ⟨o, hfirst, hself⟩ := exists_of_bind_eq_ok h
  cases Except.ok.inj hself
  cases o with
  | none => exact ⟨[], .none (hnone.mp hfirst)⟩
  | some ip =>
    obtain ⟨before, v, after, hlist, hpassed, rfl, haccepted, -⟩ := (hsome ip).mp hfirst
    exact ⟨after, .first hlist hpassed haccepted⟩

theorem OwnAddress.selfIp {root : Json} {others : List Json} (h : OwnAddress root self others) :
  selfIp root = .ok self
  := by
  obtain ⟨hsome, hnone⟩ := firstAddress_iff "" (selfIps root)
  rw [Nats.selfIp]
  cases h with
  | none passed =>
    rw [hnone.mpr passed]
    rfl
  | first list passed accepted =>
    rw [(hsome self).mpr ⟨_, _, _, list, passed, rfl, accepted, ?_⟩]
    · rfl
    · rintro rfl
      exact absurd accepted (by decide)

/-- An accepted address of the host is the one that is left out, or it comes behind it. -/
theorem OwnAddress.mem_iff {root : Json} {others : List Json} (h : OwnAddress root self others)
    (haccepted : isTailscaleIp ip = true) (hother : ip ≠ self) :
  .string ip ∈ selfIps root ↔ .string ip ∈ others
  := by
  cases h with
  | none passed =>
    refine iff_of_false ?_ List.not_mem_nil
    intro hmem
    exact (passed _ hmem).refused haccepted rfl
  | first list passed accepted =>
    rw [list, List.mem_append, List.mem_cons, or_iff_right, or_iff_right]
    · rintro ⟨⟩
      exact hother rfl
    · intro hmem
      exact (passed _ hmem).refused haccepted rfl

/-- Each peer contributes at most one candidate. -/
theorem contributors_collect (self : String) :
  ∀ peers : List Json, ∃ contributors, contributors.Sublist peers
    ∧ List.Forall₂ (fun peer c => .string c.tailscaleIp ∈ (tailscaleIps peer).getD [])
      contributors (collect self peers)
  | [] => ⟨[], .slnil, .nil⟩
  | peer :: peers => by
      obtain ⟨contributors, hsub, hall⟩ := contributors_collect self peers
      rw [collect]
      split
      · exact ⟨[], List.nil_sublist _, .nil⟩
      · exact ⟨contributors, hsub.cons peer, hall⟩
      · rename_i c hc
        obtain ⟨-, ips, hips, hleads⟩ := ((peerCandidate_iff self peer).1 c.tailscaleIp).mp ⟨_, hc⟩
        refine ⟨peer :: contributors, hsub.cons_cons peer, .cons ?_ hall⟩
        rw [hips]
        exact hleads.accepted.1

/-! ### Addresses of the tailnet -/

/-- `100.b.c.d` -/
def dotted (b c d : ℕ) : String :=
  "100." ++ toString b ++ "." ++ toString c ++ "." ++ toString d

/-- For `100.b.c.d` the check looks at `b`. -/
theorem isTailscaleIp_dotted (b c d : ℕ) :
  isTailscaleIp (dotted b c d) = true ↔ 64 ≤ b ∧ b ≤ 127
  := by
  have hdotted : (dotted b c d).toList = "100.".toList ++ (Nat.toDigits 10 b
      ++ '.' :: (Nat.toDigits 10 c ++ '.' :: Nat.toDigits 10 d)) := by
    simp [dotted]
  have htake : (Nat.toDigits 10 b
      ++ '.' :: (Nat.toDigits 10 c ++ '.' :: Nat.toDigits 10 d)).takeWhile (· ≠ '.')
      = Nat.toDigits 10 b := by
    rw [List.takeWhile_append_of_pos, List.takeWhile_cons_of_neg (by simp), List.append_nil]
    intro x hx
    have hne : x ≠ '.' := by
      rintro rfl
      exact absurd (Numerals.isDigit_toDigits _ hx) (by decide)
    simpa using hne
  have hlocal : dotted b c d ≠ "127.0.0.1" := by
    intro h
    have hlist := hdotted.symm.trans (congrArg String.toList h)
    simp at hlist
  rw [isTailscaleIp, if_neg hlocal, hdotted, if_neg (by simp)]
  simp only [List.drop_left' (show "100.".toList.length = 4 from rfl), htake]
  rw [if_neg (by simp), stoi_of_digits Nat.toDigits_ne_nil
    Numerals.isDigit_toDigits, Numerals.decimalValue_toDigits]
  by_cases hb : b ≤ Numerals.intMax
  · rw [if_pos hb]
    simp only [decide_eq_true_eq]
    omega
  · rw [if_neg hb]
    rw [Numerals.intMax] at hb
    simp only [Bool.false_eq_true, false_iff]
    omega

/-- `127.0.0.1` or an address in `100.64.0.0/10`. -/
def InTailnet (ip : String) : Prop :=
  ip = "127.0.0.1" ∨ ∃ b c d, (64 ≤ b ∧ b ≤ 127) ∧ c ≤ 255 ∧ d ≤ 255 ∧ ip = dotted b c d

/-- Every candidate is an address of the tailnet and none of the host, and each peer contributes
at most one of them. -/
structure OnlyTailnet (root : Option Json) (result : List PeerCandidate) : Prop where
  tailnet : ∀ c ∈ result, InTailnet c.tailscaleIp
  foreign : ∀ c ∈ result, .string c.tailscaleIp ∉ root.elim [] selfIps
  once : ∃ contributors : List Json, contributors.Sublist (root.elim [] peerEntries)
    ∧ List.Forall₂ (fun peer c => .string c.tailscaleIp ∈ (tailscaleIps peer).getD [])
      contributors result

/-- `127.0.0.1` or an address that is written in full. -/
def Plain (ip : String) : Prop :=
  ip = "127.0.0.1" ∨ ∃ b c d, c ≤ 255 ∧ d ≤ 255 ∧ ip = dotted b c d

/-- The address that leads the list of a peer, where no entry before it raises an exception, is
written in full, and is not one of the further addresses of the host. -/
def PlainPeers (root : Json) : Prop :=
  ∀ self others, OwnAddress root self others →
    ∀ ip, First (WellTyped self) (Offers self ip) (peerEntries root) →
      Plain ip ∧ .string ip ∉ others

/-- Of the accepted addresses, those in plain notation are in the tailnet. -/
theorem inTailnet_iff {ip : String} (h : isTailscaleIp ip = true) :
  InTailnet ip ↔ Plain ip
  := by
  constructor
  · rintro (rfl | ⟨b, c, d, -, hrest⟩)
    · exact Or.inl rfl
    · exact Or.inr ⟨b, c, d, hrest⟩
  · rintro (rfl | ⟨b, c, d, hc, hd, rfl⟩)
    · exact Or.inl rfl
    · exact Or.inr ⟨b, c, d, (isTailscaleIp_dotted b c d).mp h, hc, hd, rfl⟩

/-- The candidates are addresses of the tailnet and none of the host exactly if the status cannot be
read, or the addresses that lead the lists of its peers are written in full and are not further
addresses of the host. -/
theorem onlyTailnet_iff (parse : String → Option Json) (status statusJson : String) :
  OnlyTailnet (statusRoot parse status statusJson)
      (enumerateTailscalePeers parse status statusJson)
    ↔ ∀ root ∈ statusRoot parse status statusJson, PlainPeers root
  := by
  rw [enumerateTailscalePeers]
  cases statusRoot parse status statusJson with
  | none =>
    simp only [Option.not_mem_none, IsEmpty.forall_iff, implies_true, iff_true]
    exact ⟨by simp, by simp, [], .slnil, .nil⟩
  | some root =>
    simp only [Option.mem_some_iff, forall_eq']
    cases hself : selfIp root with
    | error e =>
      refine iff_of_true ⟨by simp, by simp, [], List.nil_sublist _, .nil⟩ ?_
      intro self others hown
      cases hself.symm.trans hown.selfIp
    | ok self =>
      have hpicked : ∀ {ip}, First (WellTyped self) (Offers self ip) (peerEntries root) →
          isTailscaleIp ip = true ∧ ip ≠ self := by
        rintro ip ⟨before, peer, after, -, -, -, ips, -, hleads⟩
        exact hleads.accepted.2
      constructor
      · intro h self' others hown ip hfirst
        cases hself.symm.trans hown.selfIp
        obtain ⟨haccepted, hother⟩ := hpicked hfirst
        obtain ⟨c, hmem, rfl⟩ := mem_collect.mpr hfirst
        constructor
        · exact (inTailnet_iff haccepted).mp (h.tailnet c hmem)
        · exact mt (hown.mem_iff haccepted hother).mpr (h.foreign c hmem)
      · intro h
        obtain ⟨others, hown⟩ := exists_ownAddress hself
        have hplain : ∀ c ∈ collect self (peerEntries root), InTailnet c.tailscaleIp
            ∧ .string c.tailscaleIp ∉ selfIps root := by
          intro c hmem
          have hfirst := mem_collect.mp ⟨c, hmem, rfl⟩
          obtain ⟨haccepted, hother⟩ := hpicked hfirst
          obtain ⟨hwritten, hnew⟩ := h self others hown _ hfirst
          rw [inTailnet_iff haccepted, hown.mem_iff haccepted hother]
          exact ⟨hwritten, hnew⟩
        exact ⟨fun c hmem => (hplain c hmem).1, fun c hmem => (hplain c hmem).2,
          contributors_collect self _⟩

/-- A status with the addresses of the host and two peers. -/
def twoPeers : Json :=
  .object [("Self", .object [("TailscaleIPs", .ofStrings ["100.64.0.1", "100.64.0.2"])]),
    ("Peer", .object [("a", .object [("TailscaleIPs", .ofStrings ["100.64x.evil"])]),
      ("b", .object [("TailscaleIPs", .ofStrings ["100.64.0.2"])])])]

/-- One candidate is no address, and the other is the second one of the host. -/
theorem not_onlyTailnet_twoPeers :
  (enumerateTailscalePeers (fun _ => some twoPeers) "" "status").map (·.tailscaleIp)
      = ["100.64x.evil", "100.64.0.2"]
    ∧ ¬ OnlyTailnet (some twoPeers) (enumerateTailscalePeers (fun _ => some twoPeers) "" "status")
  := by
  refine ⟨by decide +kernel, fun h => ?_⟩
  have hown : ∃ c ∈ enumerateTailscalePeers (fun _ => some twoPeers) "" "status",
      c.tailscaleIp = "100.64.0.2" := by decide +kernel
  obtain ⟨c, hc, hip⟩ := hown
  apply h.foreign c hc
  rw [hip]
  exact List.mem_cons_of_mem _ List.mem_cons_self

end Nats

end Agamemnon
