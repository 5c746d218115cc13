import Mathlib.Data.List.TakeWhile
import WebsocketCpp.Misc.Decimal
import WebsocketCpp.Websocket.Proofs.Strsplit
import WebsocketCpp.Websocket.Url

/-!
# Is every URL handled?

`WSNet::WSNet` (`websocket/WSNet.cpp:17-36`) takes the third part of the URL once there are two, and the
first two parts of that without a look at how many there are. `strsplit` leaves out an empty part at the
end, and `makeSockAddr` asserts that the host is an IPv4 address (`handlesUrl_iff`).
-/

namespace WebsocketCpp

/-- The third part of the URL is a host, the first `:` and a port. -/
def HasAddress (url host port : List Char) : Prop :=
  (url.splitOn '/')[2]? = some (host ++ ':' :: port) ∧ ':' ∉ host

/-- With enough iterations for `strsplit`, the constructor returns: with a client for the host and the
port, or without one. -/
structure HandlesUrl (inetPton : List Char → Bool) (url : List Char) : Prop where
  creates : ∀ n host port, url.length ≤ n → HasAddress url host port →
    urlClient inetPton n url = .ok (some ⟨host, (atoi port).setWidth 16⟩)
  leavesNull : ∀ n, url.length ≤ n → (∀ host port, ¬HasAddress url host port) →
    urlClient inetPton n url = .ok none

/-! ## Numbers -/

theorem takeWhile_append_cons {α : Type} {p : α → Bool} {c : α} (hc : p c = false) (s t : List α) :
    (s ++ c :: t).takeWhile p = s.takeWhile p := by
  induction s with
  | nil => simp [hc]
  | cons x s ih => by_cases hx : p x <;> simp [hx, ih]

theorem dropWhile_append_cons {α : Type} {p : α → Bool} {c : α} (hc : p c = false) (s t : List α) :
    (s ++ c :: t).dropWhile p = s.dropWhile p ++ c :: t := by
  induction s with
  | nil => simp [hc]
  | cons x s ih => by_cases hx : p x <;> simp [hx, ih]

/-- `strtol` stops at a character that is no part of a number. -/
theorem strtol_append_cons {c : Char} (hspace : isspace c = false) (hdigit : c.isDigit = false)
    (hminus : c ≠ '-') (hplus : c ≠ '+') (s t : List Char) : strtol (s ++ c :: t) = strtol s := by
  have hvalue (s : List Char) : digitsValue (s ++ c :: t) = digitsValue s := by
    rw [digitsValue, takeWhile_append_cons hdigit, digitsValue]
  unfold strtol
  rw [dropWhile_append_cons hspace]
  generalize s.dropWhile isspace = q
  cases q with
  | nil => simp [hminus, hplus, ← hvalue []]
  | cons x q =>
      by_cases hx : x = '-'
      · simp [hx, hvalue]
      · by_cases hx' : x = '+'
        · simp [hx', hvalue]
        · have hcons := hvalue (x :: q)
          rw [List.cons_append] at hcons
          simp [hx, hx', hcons]

theorem atoi_colon (s t : List Char) : atoi (s ++ ':' :: t) = atoi s := by
  rw [atoi, strtol_append_cons (by decide) (by decide) (by decide) (by decide), atoi]

theorem cStr_of_notMem {s : List Char} (h : '\x00' ∉ s) : cStr s = s := by
  apply List.takeWhile_eq_self_iff.mpr
  intro c hc
  exact decide_eq_true (ne_of_mem_of_not_mem hc h)

theorem notMem_cStr (s : List Char) : '\x00' ∉ cStr s := by
  intro hmem
  simpa using List.mem_takeWhile_imp hmem

theorem atoi_cStr (s : List Char) : atoi (cStr s) = atoi s := by
  by_cases hnul : '\x00' ∈ s
  · rcases List.eq_append_cons_of_mem hnul with ⟨before, after, rfl, hbefore⟩
    rw [cStr, takeWhile_append_cons (by decide), ← cStr, cStr_of_notMem hbefore, atoi, atoi,
      strtol_append_cons (by decide) (by decide) (by decide) (by decide)]
  · rw [cStr_of_notMem hnul]

/-! ## Pieces -/

/-- The third part is the third piece, if there is one. -/
theorem third_piece {url : List Char} {vec : List (List Char)} (h : Scan ['/'] url vec) :
    (vec[2]? = none ∧ ∀ part, (url.splitOn '/')[2]? = some part → part = []) ∨
      ∃ part, vec[2]? = some part ∧ (url.splitOn '/')[2]? = some part := by
  rcases h.splitOn with heq | heq <;> rw [heq]
  · cases hthird : vec[2]? with
    | none => exact .inl ⟨rfl, nofun⟩
    | some part => exact .inr ⟨part, rfl, rfl⟩
  · cases hthird : vec[2]? with
    | none =>
        refine .inl ⟨rfl, ?_⟩
        intro part hpart
        rw [List.getElem?_append_right (List.getElem?_eq_none_iff.mp hthird)] at hpart
        exact List.mem_singleton.mp (List.mem_of_getElem? hpart)
    | some part =>
        refine .inr ⟨part, rfl, ?_⟩
        rw [List.getElem?_append_left (List.getElem?_eq_some_iff.mp hthird).1, hthird]

/-- The first two pieces of an address, or how it lacks one. -/
theorem address_pieces {addr : List Char} {vec : List (List Char)} (h : Scan [':'] addr vec) :
    ((vec[0]? = none ∨ vec[1]? = none) ∧
        ∀ host port, addr = host ++ ':' :: port → ':' ∉ host → port = []) ∨
      ∃ host port piece, addr = host ++ ':' :: port ∧ ':' ∉ host ∧ port ≠ [] ∧
        vec[0]? = some host ∧ vec[1]? = some piece ∧ atoi (cStr piece) = atoi port := by
  cases h with
  | nil =>
      refine .inl ⟨.inl rfl, ?_⟩
      intro host port heq
      simp at heq
  | last _ hin =>
      refine .inl ⟨.inr rfl, ?_⟩
      rintro host port rfl
      exact absurd (by simp) (notMem_of_infix_false hin)
  | @cons host port pieces hfirst hrest =>
      have hhost := notMem_of_firstBehind hfirst
      rw [List.append_assoc, List.singleton_append]
      cases hrest with
      | nil =>
          refine .inl ⟨.inr rfl, ?_⟩
          rintro host' port' heq hhost'
          exact (append_separator_inj hhost hhost' heq).2.symm
      | last hne hin => exact .inr ⟨host, port, port, rfl, hhost, hne, rfl, rfl, atoi_cStr port⟩
      | @cons piece rest _ hfirst' _ =>
          refine .inr ⟨host, _, piece, rfl, hhost, by simp, rfl, rfl, ?_⟩
          rw [List.append_assoc, List.singleton_append, atoi_colon, atoi_cStr]

/-! ## The constructor -/

theorem HasAddress.ext {url host port host' port' : List Char} (h : HasAddress url host port)
    (h' : HasAddress url host' port') : host = host' ∧ port = port' :=
  append_separator_inj h.2 h'.2 (Option.some.inj (h.1.symm.trans h'.1))

section

variable {inetPton : List Char → Bool} {url : List Char} {vec : List (List Char)} {n : Nat}

theorem vecAt_of_some {i : Nat} {s : List Char} (h : vec[i]? = some s) : vecAt vec i = .ok s := by
  simp [vecAt, h]

theorem vecAt_of_none {i : Nat} (h : vec[i]? = none) : vecAt vec i = .error .index := by
  simp [vecAt, h]

theorem urlClient_of_short (hurl : Scan ['/'] url vec) (hn : url.length ≤ n) (hlen : vec.length < 2) :
    urlClient inetPton n url = .ok none := by
  rw [urlClient, strsplit_scan (List.cons_ne_nil _ _) hurl hn]
  exact if_neg (Nat.not_le_of_lt hlen)

theorem urlClient_of_third (hurl : Scan ['/'] url vec) (hn : url.length ≤ n) (hlen : 2 ≤ vec.length)
    (hthird : vec[2]? = none) : urlClient inetPton n url = .error .index := by
  rw [urlClient, strsplit_scan (List.cons_ne_nil _ _) hurl hn]
  dsimp only [bind, Except.bind, Except.mapError, List.nil_append]
  rw [if_pos hlen, vecAt_of_none hthird]

/-- The second half of the constructor, with the third part of the URL. -/
theorem urlClient_of_addr (hurl : Scan ['/'] url vec) (hn : url.length ≤ n) {addr : List Char}
    (hthird : vec[2]? = some addr) {parts : List (List Char)} (haddr : Scan [':'] addr parts) :
    urlClient inetPton n url = vecAt parts 0 >>= fun host => vecAt parts 1 >>= fun port =>
      makeClient inetPton (cStr host) ((atoi (cStr port)).setWidth 16) >>= fun client =>
        pure (some client) := by
  have hlen : 2 < vec.length := (List.getElem?_eq_some_iff.mp hthird).1
  have hle := hurl.length_le addr (List.mem_of_getElem? hthird)
  rw [urlClient, strsplit_scan (List.cons_ne_nil _ _) hurl hn]
  dsimp only [bind, Except.bind, Except.mapError, List.nil_append]
  rw [if_pos (Nat.le_of_lt hlen), vecAt_of_some hthird]
  dsimp only
  rw [strsplit_scan (List.cons_ne_nil _ _) haddr (Nat.le_trans hle hn)]
  rfl

theorem HandlesUrl.returns (h : HandlesUrl inetPton url) :
    ∃ client, urlClient inetPton url.length url = .ok client := by
  by_cases hform : ∃ host port, HasAddress url host port
  · rcases hform with ⟨host, port, hform⟩
    exact ⟨_, h.creates _ host port (Nat.le_refl _) hform⟩
  · refine ⟨none, h.leavesNull _ (Nat.le_refl _) ?_⟩
    intro host port hport
    exact hform ⟨host, port, hport⟩

/-- A URL with fewer than two parts. -/
theorem handlesUrl_of_short (h : '/' ∉ url.dropLast) : HandlesUrl inetPton url := by
  rcases exists_scan (List.cons_ne_nil '/' []) url with ⟨vec, hurl⟩
  have hlen : vec.length < 2 := Nat.lt_of_not_le (mt hurl.two_le_length_iff.mp h)
  refine ⟨?_, fun n hn _ => urlClient_of_short hurl hn hlen⟩
  rintro n host port - ⟨hthird, -⟩
  rcases third_piece hurl with ⟨-, hnil⟩ | ⟨part, hpart, -⟩
  · simpa using hnil _ hthird
  · have hlt := (List.getElem?_eq_some_iff.mp hpart).1
    omega

/-- A URL with an address that has something behind the `:`. -/
theorem handlesUrl_of_address {host port : List Char} (hform : HasAddress url host port)
    (hport : port ≠ []) (hnul : '\x00' ∉ host) (hip : inetPton host = true) :
    HandlesUrl inetPton url := by
  rcases exists_scan (List.cons_ne_nil '/' []) url with ⟨vec, hurl⟩
  have hclient (n : Nat) (hn : url.length ≤ n) :
      urlClient inetPton n url = .ok (some ⟨host, (atoi port).setWidth 16⟩) := by
    rcases third_piece hurl with ⟨-, hnil⟩ | ⟨part, hpart, hthird⟩
    · simpa using hnil _ hform.1
    · rcases exists_scan (List.cons_ne_nil ':' []) part with ⟨parts, haddr⟩
      have heq : part = host ++ ':' :: port := Option.some.inj (hthird.symm.trans hform.1)
      rcases address_pieces haddr with ⟨-, hnone⟩ | ⟨host', port', piece, heq', hhost', -, h0, h1, hval⟩
      · exact absurd (hnone host port heq hform.2) hport
      · rcases append_separator_inj hform.2 hhost' (heq.symm.trans heq') with ⟨rfl, rfl⟩
        rw [urlClient_of_addr hurl hn hpart haddr, vecAt_of_some h0, vecAt_of_some h1]
        dsimp only [bind, Except.bind]
        rw [makeClient, cStr_of_notMem hnul, if_pos hip, hval]
        rfl
  constructor
  · intro n host' port' hn hform'
    rcases hform.ext hform' with ⟨rfl, rfl⟩
    exact hclient n hn
  · intro n _ hnone
    exact absurd hform (hnone host port)

/-- What a URL that is handled looks like, once it has two parts. -/
theorem HandlesUrl.hasAddress (h : HandlesUrl inetPton url) (hslash : '/' ∈ url.dropLast) :
    ∃ host port, HasAddress url host port ∧ port ≠ [] ∧ '\x00' ∉ host ∧ inetPton host = true := by
  rcases exists_scan (List.cons_ne_nil '/' []) url with ⟨vec, hurl⟩
  rcases h.returns with ⟨client, hclient⟩
  rcases third_piece hurl with ⟨hnone, -⟩ | ⟨part, hpart, hthird⟩
  · rw [urlClient_of_third hurl (Nat.le_refl _) (hurl.two_le_length_iff.mpr hslash) hnone] at hclient
    cases hclient
  · rcases exists_scan (List.cons_ne_nil ':' []) part with ⟨parts, haddr⟩
    rcases address_pieces haddr with ⟨hnone, -⟩ | ⟨host, port, piece, heq, hhost, hport, h0, h1, -⟩
    · rw [urlClient_of_addr hurl (Nat.le_refl _) hpart haddr] at hclient
      rcases hnone with h0 | h1
      · rw [vecAt_of_none h0] at hclient
        cases hclient
      · rw [vecAt_of_none h1] at hclient
        cases hhost : vecAt parts 0 <;> rw [hhost] at hclient <;> cases hclient
    · subst heq
      have hcreates := h.creates _ host port (Nat.le_refl _) ⟨hthird, hhost⟩
      rw [urlClient_of_addr hurl (Nat.le_refl _) hpart haddr, vecAt_of_some h0, vecAt_of_some h1]
        at hcreates
      dsimp only [bind, Except.bind] at hcreates
      by_cases hip : inetPton (cStr host) = true
      · rw [makeClient, if_pos hip] at hcreates
        have hcut : cStr host = host :=
          congrArg ServAddr.dstIp (Option.some.inj (Except.ok.inj hcreates))
        refine ⟨host, port, ⟨hthird, hhost⟩, hport, ?_, hcut ▸ hip⟩
        rw [← hcut]
        exact notMem_cStr host
      · rw [makeClient, if_neg hip] at hcreates
        cases hcreates

/-- The constructor handles exactly the URLs with fewer than two parts, which have no third one, and those
whose third part is an IPv4 address, a `:` and at least one character. -/
theorem handlesUrl_iff (inetPton : List Char → Bool) (url : List Char) :
    HandlesUrl inetPton url ↔
      '/' ∉ url.dropLast ∨
        ∃ host port, HasAddress url host port ∧ port ≠ [] ∧ '\x00' ∉ host ∧ inetPton host = true := by
  constructor
  · intro h
    by_cases hslash : '/' ∈ url.dropLast
    · exact .inr (h.hasAddress hslash)
    · exact .inl hslash
  · rintro (hshort | ⟨host, port, hform, hport, hnul, hip⟩)
    · exact handlesUrl_of_short hshort
    · exact handlesUrl_of_address hform hport hnul hip

example : urlClient (fun _ => true) 17 "ws://1.2.3.4:80/a".toList =
    .ok (some ⟨"1.2.3.4".toList, 80⟩) := by decide +kernel

/-- Without a third part, or without a port, an index is out of range. -/
theorem not_handlesUrl : ¬HandlesUrl (fun _ => true) ['a', '/', 'b'] ∧
    ¬HandlesUrl (fun _ => true) ['w', 's', ':', '/', '/', 'h'] := by
  constructor
  · intro h
    have herr : urlClient (fun _ => true) 3 ['a', '/', 'b'] = .error .index := by decide
    rcases h.returns with ⟨client, hclient⟩
    cases herr.symm.trans hclient
  · intro h
    have herr : urlClient (fun _ => true) 6 ['w', 's', ':', '/', '/', 'h'] = .error .index := by
      decide
    rcases h.returns with ⟨client, hclient⟩
    cases herr.symm.trans hclient

end

end WebsocketCpp
