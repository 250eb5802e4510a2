/-
The port that a server's command line shows. An address is the scheme, a host without colons and
white space, a colon and a run of digits. The first scheme on the line starts the address that is
found (`clear_of_not_infix`), the host ends at the first colon after it, and the digits go as far
as they can (`prefers_address`). So the port is the number that these digits stand for, whatever
comes before and after, and a number that is no port is not taken for one (`listenPort?_shown`).
-/
import SiteScaffold.Export.Server
import SiteScaffold.Proofs.Pattern.Lines
import SiteScaffold.Proofs.Text.Decimal

namespace SiteScaffold.Export

open Pattern

variable {before : Option Char} {front host digits back rest : Text}

/-- How an address starts. -/
def scheme : Text := "tcp://"

/-- Whether the text can name the host of an address. -/
def IsHost (host : Text) : Prop := host ≠ [] ∧ ∀ c ∈ host, c ≠ ':' ∧ Text.isBlank c = false

/-- Whether digits that stand before the text do not go on in it. -/
def EndsDigits (back : Text) : Prop := ∀ c ∈ back.head?, Text.isDigit c = false

instance (host : Text) : Decidable (IsHost host) :=
  inferInstanceAs (Decidable (host ≠ [] ∧ ∀ c ∈ host, c ≠ ':' ∧ Text.isBlank c = false))

theorem endsDigits_iff : (back.head?.all fun c => !Text.isDigit c) = true ↔ EndsDigits back := by
  cases back with
  | nil => simp [EndsDigits]
  | cons c back => simp [EndsDigits]

instance (back : Text) : Decidable (EndsDigits back) := decidable_of_iff _ endsDigits_iff

/-- The address of a host, with the digits of its port. -/
def address (host digits : Text) : Text := scheme ++ (host ++ (":" ++ digits))

theorem IsHost.notMem_colon (h : IsHost host) : ':' ∉ host := fun hmem => (h.2 _ hmem).1 rfl

/-- An address starts with the scheme. -/
theorem scheme_of_startsAt {t : Text} (h : listenAddress.StartsAt before t) : ∃ s, t = scheme ++ s := by
  obtain ⟨u, s, rfl, hmatches⟩ := h.left.left.left
  exact ⟨s, by rw [matches_literal.1 hmatches]; rfl⟩

/-- No address starts before the first scheme. -/
theorem clear_of_not_infix (hfront : ¬ scheme <:+: front) (rest : Text) :
    listenAddress.Clear none front (scheme ++ rest) := by
  rw [clear_iff]
  rintro u v rfl hne hstarts
  obtain ⟨s, hs⟩ := scheme_of_startsAt hstarts
  obtain ⟨c, v, rfl⟩ := List.exists_cons_of_ne_nil hne
  -- the letter that a scheme starts with does not come again in it
  have htail : v ++ 't' :: ("cp://".toList ++ rest) = "cp://".toList ++ s := (List.cons_eq_cons.1 hs).2
  obtain ⟨y, rfl, -⟩ := Text.exists_append_of_notMem htail (by decide)
  obtain rfl : c = 't' := (List.cons_eq_cons.1 hs).1
  exact hfront ⟨u, y, by simp [scheme]⟩

/-- The address is read with all the digits there are. -/
theorem prefers_address (hhost : IsHost host) (hne : digits ≠ []) (hdigits : ∀ c ∈ digits, c.isDigit)
    (hback : EndsDigits back) : listenAddress.Prefers before (address host digits) back := by
  have hname : (oneOrMore fun c => c ≠ ':' && !Text.isBlank c).Prefers (lastAfter before scheme) host
      ((":" ++ digits) ++ back) := by
    refine prefers_oneOrMore hhost.1 (fun c hc => ?_) (fun c hc => ?_)
    · simpa using hhost.2 c hc
    · obtain rfl : ':' = c := by simpa using hc
      decide
  have hport : (capture 1 (oneOrMore Text.isDigit)).Prefers
      (lastAfter (lastAfter (lastAfter before scheme) host) ":".toList) digits back :=
    prefers_capture (prefers_oneOrMore hne (fun c hc => Text.isDigit_of_isAscii (hdigits c hc)) hback)
  rw [listenAddress, prefers_assoc, prefers_assoc]
  exact prefers_append (prefers_literal scheme)
    (prefers_append hname (prefers_append (prefers_literal ":".toList) hport))

/-- The digits of the port are what is captured. -/
theorem group_of_accepts {kept : List (Nat × Text)} (hhost : IsHost host)
    (h : listenAddress.Accepts before (address host digits) rest kept) : kept = [(1, digits)] := by
  obtain ⟨u, d, htext, k, l, rfl, hlead, hport⟩ := accepts_append.1 h
  obtain ⟨inner, rfl, hinner⟩ := accepts_capture.1 hport
  obtain ⟨hname, rfl⟩ := (accepts_iff (by rfl)).1 hlead
  obtain ⟨-, rfl⟩ := (accepts_iff (by rfl)).1 hinner
  simp only [matches_append, matches_literal, matches_oneOrMore] at hname
  obtain ⟨_, _, rfl, ⟨_, name, rfl, rfl, -, hname⟩, rfl⟩ := hname
  have hsplit : host ++ ':' :: digits = name ++ ':' :: d := by
    simpa [address, scheme] using htext
  have hnotMem : ':' ∉ name := fun hmem => by simpa using hname _ hmem
  obtain rfl := Text.eq_of_first hsplit hhost.notMem_colon hnotMem
  obtain rfl : digits = d := (List.cons_eq_cons.1 (List.append_cancel_left hsplit)).2
  rfl

/-- The port of the first address on the line. -/
theorem listenPort?_address (hfront : ¬ scheme <:+: front) (hhost : IsHost host) (hne : digits ≠ [])
    (hdigits : ∀ c ∈ digits, c.isDigit) (hback : EndsDigits back) :
    listenPort? (front ++ (address host digits ++ back)) = Text.decimal? largestPort digits := by
  have haddress : address host digits ≠ [] := by simp [address, scheme]
  have hclear : listenAddress.Clear none front (address host digits ++ back) := by
    rw [address, List.append_assoc]
    exact clear_of_not_infix hfront _
  obtain ⟨hit, hfirst, -, haccepts⟩ :=
    first?_of_prefers hclear (prefers_address hhost hne hdigits hback) haddress
  have hgroup : hit.group 1 = digits := by
    rw [Hit.group, Hit.group?, group_of_accepts hhost haccepts]
    rfl
  rw [listenPort?, hfirst, ← hgroup]
  rfl

/-- The port that a line shows is the number of its first address, if that is a port, and a port
that is written there is found. -/
theorem listenPort?_shown (hfront : ¬ scheme <:+: front) (hhost : IsHost host) (hback : EndsDigits back) :
    (∀ digits : Text, digits ≠ [] → (∀ c ∈ digits, c.isDigit) →
      listenPort? (front ++ (scheme ++ host ++ ":" ++ digits) ++ back)
        = if Nat.ofDigitChars 10 digits 0 ≤ largestPort then some (Nat.ofDigitChars 10 digits 0) else none)
      ∧ ∀ port ≤ largestPort,
        listenPort? (front ++ (scheme ++ host ++ ":" ++ Text.ofNat port) ++ back) = some port := by
  have hline : ∀ digits : Text, front ++ (scheme ++ host ++ ":" ++ digits) ++ back
      = front ++ (address host digits ++ back) := fun digits => by simp [address]
  refine ⟨fun digits hne hdigits => ?_, fun port hport => ?_⟩
  · rw [hline, listenPort?_address hfront hhost hne hdigits hback, Text.decimal?_digits hne hdigits]
  · rw [hline, listenPort?_address hfront hhost (Text.ofNat_ne_nil port)
      (fun _ => Text.isDigit_of_mem_ofNat) hback, Text.decimal?_ofNat hport]

/-- The line of a server that listens at two addresses: a port with zeros before it, a number that
is one too large, and the largest port. -/
theorem listenPort?_shown_twice :
    let line (digits : Text) : Text :=
      "puma 6.4 (" ++ (scheme ++ "127.0.0.1" ++ ":" ++ digits) ++ ") tcp://[::1]:80 [blog]"
    line "3000" = "puma 6.4 (tcp://127.0.0.1:3000) tcp://[::1]:80 [blog]"
      ∧ ¬ scheme <:+: ("puma 6.4 (" : Text) ∧ IsHost "127.0.0.1" ∧ EndsDigits ") tcp://[::1]:80 [blog]"
      ∧ listenPort? (line "003000") = some 3000
      ∧ listenPort? (line "65536") = none
      ∧ listenPort? (line (Text.ofNat largestPort)) = some largestPort := by
  intro line
  have hfront : ¬ scheme <:+: ("puma 6.4 (" : Text) := by decide +kernel
  have hhost : IsHost "127.0.0.1" := by decide
  have hback : EndsDigits ") tcp://[::1]:80 [blog]" := by decide
  obtain ⟨hdigits, hport⟩ := listenPort?_shown hfront hhost hback
  refine ⟨by decide +kernel, hfront, hhost, hback, ?_, ?_, hport largestPort (Nat.le_refl _)⟩
  · exact (hdigits "003000" (by decide) (by decide)).trans (by decide +kernel)
  · exact (hdigits "65536" (by decide) (by decide)).trans (by decide +kernel)

end SiteScaffold.Export
