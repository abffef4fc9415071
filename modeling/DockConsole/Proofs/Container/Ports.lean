import DockConsole.Container
import DockConsole.NameMap
import Mathlib.Data.List.DropRight
import Mathlib.Data.List.Forall2

/-!
What the text of the ports tells.

A comma parts one port from the next, and there is none inside of them. In a port the first slash
ends the number, or an arrow and the number, and behind it stands the protocol. In front of the
arrow the last colon ends the address, which may hold colons itself. So the text can be read back,
down to the fields that the daemon gave.
-/

namespace DockConsole

namespace Text

lemma readNat_ofNat (n : ℕ) : readNat (ofNat n) = n := Nat.ofDigitChars_ten_toDigits

lemma isDigit_of_mem_ofNat {n : ℕ} : ∀ c ∈ ofNat n, c.isDigit = true :=
  fun _ hc => Nat.isDigit_of_mem_toDigits (by decide) (by decide) hc

variable {c : Char} {s t : Text}

lemma notMem_of_digits (hs : ∀ d ∈ s, d.isDigit = true) (hc : c.isDigit = false) : c ∉ s :=
  fun hmem => Bool.false_ne_true (hc.symm.trans (hs c hmem))

/-! ### A text cut at a character -/

lemma ne_of_notMem (h : c ∉ s) : ∀ d ∈ s, decide (d ≠ c) = true := by
  intro d hd
  rw [decide_eq_true_iff]
  rintro rfl
  exact h hd

lemma takeWhile_cut (h : c ∉ s) : (s ++ c :: t).takeWhile (· ≠ c) = s := by
  rw [List.takeWhile_append_of_pos (ne_of_notMem h), List.takeWhile_cons_of_neg (by simp),
    List.append_nil]

lemma dropWhile_cut (h : c ∉ s) : (s ++ c :: t).dropWhile (· ≠ c) = c :: t := by
  have hwhole := List.takeWhile_append_dropWhile (p := (· ≠ c)) (l := s ++ c :: t)
  rw [takeWhile_cut h] at hwhole
  exact List.append_cancel_left hwhole

lemma rtakeWhile_cut (h : c ∉ t) : (s ++ c :: t).rtakeWhile (· ≠ c) = t := by
  rw [List.rtakeWhile, List.reverse_append, List.reverse_cons, List.append_assoc,
    List.singleton_append, takeWhile_cut (by simpa using h), List.reverse_reverse]

lemma rdropWhile_cut (h : c ∉ t) : (s ++ c :: t).rdropWhile (· ≠ c) = s ++ [c] := by
  rw [List.rdropWhile, List.reverse_append, List.reverse_cons, List.append_assoc,
    List.singleton_append, dropWhile_cut (by simpa using h), List.reverse_cons,
    List.reverse_reverse]

end Text

namespace Port

/-! ### One port -/

/-- The text of the port can be read: its numbers are written in digits, and what stands in its
other places has none of the characters around it. -/
structure Legible (p : Port) : Prop where
  inside : ∀ c ∈ p.inside, c.isDigit = true
  protocol : ',' ∉ p.protocol
  address : ∀ q ∈ p.published, ',' ∉ q.1 ∧ '/' ∉ q.1 ∧ '-' ∉ q.1
  outside : ∀ q ∈ p.published, ∀ c ∈ q.2, c.isDigit = true

/-- Where a port is published: an address, which may be left out, and a number. -/
def socket (ip outside : Text) : Text := (if ip.isEmpty then [] else ip ++ [':']) ++ outside

/-- The address of a socket and its number. -/
def readSocket (s : Text) : Text × Text :=
  ((s.rdropWhile (· ≠ ':')).dropLast, s.rtakeWhile (· ≠ ':'))

/-- The port that a text tells. -/
def read (s : Text) : Port :=
  let front := s.takeWhile (· ≠ '/')
  let protocol := (s.dropWhile (· ≠ '/')).tail
  if '-' ∈ front then
    { inside := (front.dropWhile (· ≠ '-')).drop 2
      protocol := protocol
      published := some (readSocket (front.takeWhile (· ≠ '-'))) }
  else { inside := front, protocol := protocol, published := none }

lemma readSocket_socket (ip : Text) {outside : Text}
    (h : ∀ c ∈ outside, c.isDigit = true) : readSocket (socket ip outside) = (ip, outside) := by
  have hcolon : ':' ∉ outside := Text.notMem_of_digits h (by decide)
  cases ip with
  | nil =>
    have hall := Text.ne_of_notMem hcolon
    show ((outside.rdropWhile (· ≠ ':')).dropLast, outside.rtakeWhile (· ≠ ':')) = ([], outside)
    rw [List.rdropWhile_eq_nil_iff.mpr hall, List.rtakeWhile_eq_self_iff.mpr hall,
      List.dropLast_nil]
  | cons c ip =>
    have hsocket : socket (c :: ip) outside = (c :: ip) ++ ':' :: outside := by
      simp [socket]
    rw [readSocket, hsocket, Text.rdropWhile_cut hcolon, Text.rtakeWhile_cut hcolon,
      List.dropLast_concat]

lemma text_of_published {inside protocol ip outside : Text} :
    text ⟨inside, protocol, some (ip, outside)⟩ =
      (socket ip outside ++ '-' :: '>' :: inside) ++ '/' :: protocol := by
  simp [text, socket]

/-- What is neither in the address nor in the number, and not the colon between them, is not in a
socket. -/
lemma notMem_socket {c : Char} {ip outside : Text} (hip : c ∉ ip) (hcolon : c ≠ ':')
    (houtside : c ∉ outside) : c ∉ socket ip outside := by
  unfold socket
  split_ifs <;> simp [hip, hcolon, houtside]

lemma read_text {p : Port} (h : p.Legible) : read p.text = p := by
  obtain ⟨inside, protocol, published⟩ := p
  have hslash : '/' ∉ inside := Text.notMem_of_digits h.inside (by decide)
  have hhyphen : '-' ∉ inside := Text.notMem_of_digits h.inside (by decide)
  cases published with
  | none =>
    have htext : text ⟨inside, protocol, none⟩ = inside ++ '/' :: protocol := by
      simp [text]
    rw [read, htext, Text.takeWhile_cut hslash, Text.dropWhile_cut hslash, List.tail_cons,
      if_neg hhyphen]
  | some q =>
    obtain ⟨ip, outside⟩ := q
    obtain ⟨-, hipslash, hiphyphen⟩ := h.address _ rfl
    have hdigits := h.outside _ rfl
    have hfront : '-' ∉ socket ip outside :=
      notMem_socket hiphyphen (by decide) (Text.notMem_of_digits hdigits (by decide))
    have hsocket : '/' ∉ socket ip outside :=
      notMem_socket hipslash (by decide) (Text.notMem_of_digits hdigits (by decide))
    have hall : '/' ∉ socket ip outside ++ '-' :: '>' :: inside := by
      simp [hsocket, hslash]
    rw [read, text_of_published, Text.takeWhile_cut hall, Text.dropWhile_cut hall, List.tail_cons,
      if_pos (by simp), Text.takeWhile_cut hfront, Text.dropWhile_cut hfront,
      readSocket_socket ip hdigits]
    rfl

lemma comma_notMem_text {p : Port} (h : p.Legible) : ',' ∉ p.text := by
  obtain ⟨inside, protocol, published⟩ := p
  have hinside : ',' ∉ inside := Text.notMem_of_digits h.inside (by decide)
  have hprotocol : ',' ∉ protocol := h.protocol
  cases published with
  | none => simp [text, hinside, hprotocol]
  | some q =>
    have hsocket : ',' ∉ socket q.1 q.2 := notMem_socket (h.address _ rfl).1 (by decide)
      (Text.notMem_of_digits (h.outside _ rfl) (by decide))
    rw [text_of_published]
    simp [hsocket, hinside, hprotocol]

lemma text_ne_nil (p : Port) : p.text ≠ [] := by
  obtain ⟨inside, protocol, published⟩ := p
  cases published <;> simp [text]

/-! ### Several ports -/

/-- The ports that a text tells. There is a blank behind a comma, and one is put in front of the
first port, so that all of them begin with a blank. -/
def readAll (s : Text) : List Port :=
  if s.isEmpty then [] else ((' ' :: s).splitOn ',').map fun piece => read piece.tail

lemma blank_cons_intercalate (first : Text) (rest : List Text) :
    ' ' :: List.intercalate ", ".toList (first :: rest) =
      List.intercalate [','] ((first :: rest).map (' ' :: ·)) := by
  induction rest generalizing first with
  | nil => simp
  | cons second rest ih =>
    rw [List.intercalate_cons_cons, List.map_cons, List.map_cons, List.intercalate_cons_cons,
      ← List.map_cons, ← ih]
    simp

/-- **Reading**: the text of the ports tells the ports. -/
theorem readAll_join {ps : List Port} (h : ∀ p ∈ ps, p.Legible) : readAll (join ps) = ps := by
  cases ps with
  | nil => rfl
  | cons p ps =>
    have hne : (join (p :: ps)).isEmpty = false := by
      have htext := text_ne_nil p
      rw [List.isEmpty_eq_false_iff]
      cases ps <;> simp [join, List.intercalate_cons_cons, htext]
    have hcomma : ∀ s ∈ ((p :: ps).map text).map (' ' :: ·), ',' ∉ s := by
      intro s hs
      rw [List.map_map] at hs
      obtain ⟨q, hq, rfl⟩ := List.mem_map.mp hs
      simpa using comma_notMem_text (h q hq)
    have hread : ∀ q ∈ p :: ps, read q.text = q := fun q hq => read_text (h q hq)
    rw [readAll, hne, if_neg Bool.false_ne_true, join, List.map_cons, blank_cons_intercalate,
      ← List.map_cons, List.splitOn_intercalate ',' hcomma (by simp), List.map_map, List.map_map]
    exact (List.map_congr_left hread).trans (List.map_id _)

/-! ### The fields that the daemon gave -/

/-- What the daemon says of a port: a number inside of the container and a protocol, and if the port
is published, a number on the host, with an address or without one. A protocol has no comma, as no
word has, and an address has none of the characters around it, as hexadecimal digits, points and
colons are none of them. -/
structure WellFormed (v : Json) : Prop where
  inside : ∃ n : ℕ, v.get? "PrivatePort".toList = some (.ofInt n)
  protocol : ∃ s : Text, v.get? "Type".toList = some (.str s) ∧ ',' ∉ s
  published :
    (v.get? "PublicPort".toList = none ∧ v.get? "IP".toList = none) ∨
      ∃ (n : ℕ) (ip : Option Text), 0 < n ∧
        v.get? "PublicPort".toList = some (.ofInt n) ∧ v.get? "IP".toList = ip.map .str ∧
          ∀ s ∈ ip, s ≠ [] ∧ ',' ∉ s ∧ '/' ∉ s ∧ '-' ∉ s
  alone : ∀ name,
    name ∉ ["PrivatePort".toList, "Type".toList, "PublicPort".toList, "IP".toList] →
      v.get? name = none

/-- The field that a port had when it came from the daemon. -/
def field (p : Port) (name : Text) : Option Json :=
  if name = "PrivatePort".toList then some (.ofInt (Text.readNat p.inside))
  else if name = "Type".toList then some (.str p.protocol)
  else if name = "PublicPort".toList then p.published.map fun q => .ofInt (Text.readNat q.2)
  else if name = "IP".toList then
    p.published.bind fun q => if q.1.isEmpty then none else some (.str q.1)
  else none

variable {v w : Json}

lemma inside_ofJson {n : ℕ} (h : v.get? "PrivatePort".toList = some (.ofInt n)) :
    (ofJson v).inside = Text.ofNat n := by
  show v.shownAt _ _ = _
  rw [Json.shownAt, h]
  rfl

lemma protocol_ofJson {s : Text} (h : v.get? "Type".toList = some (.str s)) :
    (ofJson v).protocol = s := by
  show v.shownAt _ _ = _
  rw [Json.shownAt, h]
  rfl

lemma published_ofJson_of_none (h : v.get? "PublicPort".toList = none) :
    (ofJson v).published = none := by
  simp only [ofJson, h]

lemma published_ofJson {n : ℕ} (hn : 0 < n)
    (h : v.get? "PublicPort".toList = some (.ofInt n)) {ip : Option Text}
    (hip : v.get? "IP".toList = ip.map .str) :
    (ofJson v).published = some (ip.getD [], Text.ofNat n) := by
  have htruthy : (Json.ofInt n).truthy = true := by
    have : n ≠ 0 := by omega
    simpa [Json.ofInt, Json.truthy, Number.isZero] using this
  simp only [ofJson, h, htruthy, if_true, hip]
  cases ip <;> rfl

lemma WellFormed.legible (h : WellFormed v) : (ofJson v).Legible := by
  obtain ⟨n, hinside⟩ := h.inside
  obtain ⟨s, hprotocol, hcomma⟩ := h.protocol
  have hpublished : ∀ q ∈ (ofJson v).published,
      (',' ∉ q.1 ∧ '/' ∉ q.1 ∧ '-' ∉ q.1) ∧ ∀ c ∈ q.2, c.isDigit = true := by
    rintro q hq
    obtain ⟨hnone, -⟩ | ⟨m, ip, hm, hpublic, hip, haddress⟩ := h.published
    · rw [published_ofJson_of_none hnone] at hq
      exact absurd hq (Option.not_mem_none q)
    · rw [published_ofJson hm hpublic hip, Option.mem_some_iff] at hq
      subst hq
      refine ⟨?_, Text.isDigit_of_mem_ofNat⟩
      cases ip with
      | none => simp
      | some s => exact (haddress s rfl).2
  exact
    { inside := by rw [inside_ofJson hinside]; exact Text.isDigit_of_mem_ofNat
      protocol := by rw [protocol_ofJson hprotocol]; exact hcomma
      address := fun q hq => (hpublished q hq).1
      outside := fun q hq => (hpublished q hq).2 }

/-- A port has the fields that it came from. -/
lemma WellFormed.field_ofJson (h : WellFormed v) (name : Text) :
    (ofJson v).field name = v.get? name := by
  obtain ⟨n, hinside⟩ := h.inside
  obtain ⟨s, hprotocol, -⟩ := h.protocol
  unfold field
  split_ifs with h₁ h₂ h₃ h₄
  · rw [h₁, hinside, inside_ofJson hinside, Text.readNat_ofNat]
  · rw [h₂, hprotocol, protocol_ofJson hprotocol]
  · obtain ⟨hnone, -⟩ | ⟨m, ip, hm, hpublic, hip, -⟩ := h.published
    · rw [h₃, hnone, published_ofJson_of_none hnone, Option.map_none]
    · rw [h₃, hpublic, published_ofJson hm hpublic hip, Option.map_some, Text.readNat_ofNat]
  · obtain ⟨hnone, hip⟩ | ⟨m, ip, hm, hpublic, hip, haddress⟩ := h.published
    · rw [h₄, hip, published_ofJson_of_none hnone, Option.bind_none]
    · rw [h₄, hip, published_ofJson hm hpublic hip, Option.bind_some]
      cases ip with
      | none => rfl
      | some s => simp [(haddress s rfl).1]
  · refine (h.alone name ?_).symm
    simp only [List.mem_cons, List.not_mem_nil, or_false, not_or]
    exact ⟨h₁, h₂, h₃, h₄⟩

lemma WellFormed.ofJson_eq_iff (hv : WellFormed v) (hw : WellFormed w) :
    ofJson v = ofJson w ↔ ∀ name, v.get? name = w.get? name := by
  constructor
  · intro h name
    rw [← hv.field_ofJson, h, hw.field_ofJson]
  · intro h
    simp only [ofJson, Json.shownAt, h]

lemma readAll_join_ofJson {vs : List Json} (hvs : ∀ v ∈ vs, WellFormed v) :
    readAll (join (vs.map ofJson)) = vs.map ofJson := by
  refine readAll_join fun p hp => ?_
  obtain ⟨v, hv, rfl⟩ := List.mem_map.mp hp
  exact (hvs v hv).legible

/-- **Nothing is lost**: two lists of ports have the same text exactly if they are equally long and
ports in the same place have the same fields. -/
theorem join_eq_join_iff {vs ws : List Json} (hvs : ∀ v ∈ vs, WellFormed v)
    (hws : ∀ w ∈ ws, WellFormed w) :
    join (vs.map ofJson) = join (ws.map ofJson) ↔
      List.Forall₂ (fun v w => ∀ name, v.get? name = w.get? name) vs ws := by
  have hports : join (vs.map ofJson) = join (ws.map ofJson) ↔ vs.map ofJson = ws.map ofJson := by
    refine ⟨fun h => ?_, congrArg join⟩
    rw [← readAll_join_ofJson hvs, h, readAll_join_ofJson hws]
  have hsame : ∀ {v w}, (v, w) ∈ vs.zip ws →
      (ofJson v = ofJson w ↔ ∀ name, v.get? name = w.get? name) := by
    intro v w hmem
    obtain ⟨hv, hw⟩ := List.of_mem_zip hmem
    exact (hvs v hv).ofJson_eq_iff (hws w hw)
  rw [hports, ← List.forall₂_eq_eq_eq, List.forall₂_map_left_iff, List.forall₂_map_right_iff,
    List.forall₂_iff_zip, List.forall₂_iff_zip]
  exact and_congr_right fun _ => ⟨fun h v w hmem => (hsame hmem).mp (h hmem),
    fun h v w hmem => (hsame hmem).mpr (h hmem)⟩

/-- A port on an address with colons, its fields in two orders, and behind it one that is not
published. -/
theorem join_eq_join_of_reordered :
    let published : Json := .obj [("IP".toList, .str "fe80::1".toList),
      ("PrivatePort".toList, .ofInt 80), ("PublicPort".toList, .ofInt 8080),
      ("Type".toList, .str "tcp".toList)]
    let reordered : Json := .obj [("Type".toList, .str "tcp".toList),
      ("PublicPort".toList, .ofInt 8080), ("PrivatePort".toList, .ofInt 80),
      ("IP".toList, .str "fe80::1".toList)]
    let exposed : Json := .obj [("PrivatePort".toList, .ofInt 443),
      ("Type".toList, .str "udp".toList)]
    (WellFormed published ∧ WellFormed reordered ∧ WellFormed exposed) ∧
      join ([published, exposed].map ofJson) = "fe80::1:8080->80/tcp, 443/udp".toList ∧
      List.Forall₂ (fun v w : Json => ∀ name, v.get? name = w.get? name) [published, exposed]
        [reordered, exposed] := by
  intro published reordered exposed
  have hpublished : WellFormed published :=
    ⟨⟨80, rfl⟩, ⟨_, rfl, by decide⟩, .inr ⟨8080, some _, by decide, rfl, rfl, by decide⟩,
      fun name h => by simp_all [published, Json.get?, NameMap.lookup_cons]⟩
  have hreordered : WellFormed reordered :=
    ⟨⟨80, rfl⟩, ⟨_, rfl, by decide⟩, .inr ⟨8080, some _, by decide, rfl, rfl, by decide⟩,
      fun name h => by simp_all [reordered, Json.get?, NameMap.lookup_cons]⟩
  have hexposed : WellFormed exposed :=
    ⟨⟨443, rfl⟩, ⟨_, rfl, by decide⟩, .inl ⟨rfl, rfl⟩,
      fun name h => by simp_all [exposed, Json.get?, NameMap.lookup_cons]⟩
  refine ⟨⟨hpublished, hreordered, hexposed⟩, by decide, ?_⟩
  exact (join_eq_join_iff (by simp [hpublished, hexposed]) (by simp [hreordered, hexposed])).mp
    (by decide)

end Port

end DockConsole
