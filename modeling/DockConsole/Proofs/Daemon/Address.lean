import DockConsole.Daemon.Host
import DockConsole.Proofs.Rows.Filter
import DockConsole.Proofs.Text.Trim

/-!
The form that addresses of the daemon are brought to.

Blanks are taken off before slashes are, and only once each. So an address whose end mixes slashes
and blanks keeps some of them, and one that is nothing but slashes is left with the slashes of the
scheme. Every other address gets its normal form, in which nothing is left to do.
-/

namespace DockConsole.Host

open Text (isBlank Strips strips_iff strips_trim)

/-- The address given, or the default if there is none. -/
def given : Option Text → Text
  | none | some [] => default
  | some h => h

/-- The address given, without the blanks around it and then without the slashes at its end. -/
def bare (host : Option Text) : Text := (given host).trim.rdropWhile (· = '/')

lemma normalize_eq (host : Option Text) :
    normalize host = withScheme (readTcpAsHttp (bare host)) := by
  rcases host with _ | _ | ⟨c, h⟩ <;> rfl

/-- The address has a scheme other than `tcp`, no blank around it and no slash at its end. -/
structure Normal (s : Text) : Prop where
  scheme : "://".toList <:+: s
  not_tcp : ¬ tcp <+: s
  head : ∀ c ∈ s.head?, ¬ isBlank c
  last : ∀ c ∈ s.getLast?, ¬ isBlank c ∧ c ≠ '/'

/-- The address has a character that is neither blank nor a slash, and behind the last one come
slashes first and then blanks. -/
def Sound (s : Text) : Prop :=
  ∃ before c slashes after, s = before ++ c :: (slashes ++ after) ∧ (¬ isBlank c ∧ c ≠ '/') ∧
    (∀ x ∈ slashes, x = '/') ∧ ∀ x ∈ after, isBlank x

/-! ### The scheme -/

section Scheme

variable {s : Text}

lemma scheme_infix_http : "://".toList <:+: http := ⟨"http".toList, [], rfl⟩

lemma not_tcp_prefix_http (s : Text) : ¬ tcp <+: http ++ s := by
  rintro ⟨rest, hrest⟩
  have hhead := congrArg List.head? hrest
  exact absurd hhead (by decide : some 't' ≠ some 'h')

lemma scheme_infix_withScheme (s : Text) : "://".toList <:+: withScheme s := by
  rw [withScheme]
  split
  · next h => exact (Text.includes_iff s _).mp h
  · exact scheme_infix_http.trans (List.prefix_append http s).isInfix

lemma not_tcp_prefix_withScheme (h : ¬ tcp <+: s) : ¬ tcp <+: withScheme s := by
  rw [withScheme]
  split
  · exact h
  · exact not_tcp_prefix_http s

lemma not_tcp_prefix_readTcpAsHttp (s : Text) : ¬ tcp <+: readTcpAsHttp s := by
  rw [readTcpAsHttp]
  split
  · exact not_tcp_prefix_http _
  · next h => rwa [← List.isPrefixOf_iff_prefix]

/-- A scheme in front leaves the end of an address as it is, unless there is no address. -/
lemma getLast?_withScheme (s : Text) : (withScheme s).getLast? = s.getLast?.or (some '/') := by
  rw [withScheme]
  split
  · next h =>
    cases s with
    | nil => exact absurd h (by decide)
    | cons c s => rw [List.getLast?_cons, Option.some_or]
  · rw [List.getLast?_append]
    rfl

lemma getLast?_readTcpAsHttp (h : ∀ c ∈ s.getLast?, c ≠ '/') :
    (readTcpAsHttp s).getLast? = s.getLast? := by
  rw [readTcpAsHttp]
  split
  · next htcp =>
    obtain ⟨rest, rfl⟩ := List.isPrefixOf_iff_prefix.mp htcp
    rw [List.drop_left, List.getLast?_append, List.getLast?_append]
    -- nothing behind `tcp://` would mean that the address ends in a slash
    cases rest with
    | nil => exact absurd rfl (h '/' rfl)
    | cons c rest => rw [List.getLast?_cons, Option.some_or, Option.some_or]
  · rfl

lemma head_http (s : Text) : ∀ c ∈ (http ++ s).head?, ¬ isBlank c := by
  rintro c ⟨⟩
  decide

lemma head_withScheme (h : ∀ c ∈ s.head?, ¬ isBlank c) :
    ∀ c ∈ (withScheme s).head?, ¬ isBlank c := by
  rw [withScheme]
  split
  · exact h
  · exact head_http s

lemma head_readTcpAsHttp (h : ∀ c ∈ s.head?, ¬ isBlank c) :
    ∀ c ∈ (readTcpAsHttp s).head?, ¬ isBlank c := by
  rw [readTcpAsHttp]
  split
  · exact head_http _
  · exact h

end Scheme

/-! ### The ends -/

variable {host : Option Text} {s : Text}

lemma trim_given_eq (host : Option Text) :
    ∃ slashes, bare host ++ slashes = (given host).trim ∧ ∀ x ∈ slashes, x = '/' := by
  refine ⟨(given host).trim.rtakeWhile (· = '/'), List.rdropWhile_append_rtakeWhile, ?_⟩
  exact fun x hx => by simpa using List.mem_rtakeWhile_imp hx

lemma last_bare (host : Option Text) : ∀ c ∈ (bare host).getLast?, c ≠ '/' := by
  intro c hc
  simpa using Text.last_rdropWhile (· = '/') (given host).trim c hc

lemma head_bare (host : Option Text) : ∀ c ∈ (bare host).head?, ¬ isBlank c := by
  intro c hc
  obtain ⟨slashes, htrim, -⟩ := trim_given_eq host
  refine (strips_trim (given host)).head c ?_
  rw [← htrim, List.head?_append, hc]
  rfl

lemma head_normalize (host : Option Text) : ∀ c ∈ (normalize host).head?, ¬ isBlank c := by
  rw [normalize_eq]
  exact head_withScheme (head_readTcpAsHttp (head_bare host))

lemma scheme_infix_normalize (host : Option Text) : "://".toList <:+: normalize host := by
  rw [normalize_eq]
  exact scheme_infix_withScheme _

lemma not_tcp_prefix_normalize (host : Option Text) : ¬ tcp <+: normalize host := by
  rw [normalize_eq]
  exact not_tcp_prefix_withScheme (not_tcp_prefix_readTcpAsHttp _)

lemma getLast?_normalize (host : Option Text) :
    (normalize host).getLast? = (bare host).getLast?.or (some '/') := by
  rw [normalize_eq, getLast?_withScheme, getLast?_readTcpAsHttp (last_bare host)]

/-- Only the end of the address decides whether it gets its normal form. -/
lemma normal_normalize_iff (host : Option Text) :
    Normal (normalize host) ↔ ∃ c, (bare host).getLast? = some c ∧ ¬ isBlank c := by
  have hlast := getLast?_normalize host
  constructor
  · rintro ⟨-, -, -, hend⟩
    rcases hbare : (bare host).getLast? with _ | c
    · rw [hbare, Option.none_or] at hlast
      exact absurd rfl (hend '/' hlast).2
    · rw [hbare, Option.some_or] at hlast
      exact ⟨c, rfl, (hend c hlast).1⟩
  · rintro ⟨c, hbare, hc⟩
    rw [hbare, Option.some_or] at hlast
    refine ⟨scheme_infix_normalize host, not_tcp_prefix_normalize host, head_normalize host, ?_⟩
    rw [hlast]
    rintro _ ⟨⟩
    exact ⟨hc, last_bare host c hbare⟩

/-- Blanks behind the slashes behind a character that stays: trimming takes the blanks alone. -/
lemma strips_slashes {before slashes after : Text} {c : Char} (hc : ¬ isBlank c)
    (hslashes : ∀ x ∈ slashes, x = '/') (hafter : ∀ x ∈ after, isBlank x) :
    Strips (before ++ c :: (slashes ++ after)) (before.dropWhile isBlank ++ [c] ++ slashes) where
  around := by
    refine ⟨before.takeWhile isBlank, after, ?_, fun x => List.mem_takeWhile_imp, hafter⟩
    rw [List.append_assoc, List.append_assoc, List.append_assoc, ← List.append_assoc,
      List.takeWhile_append_dropWhile]
    rfl
  head := by
    intro x hx
    have hnot := List.head?_dropWhile_not isBlank before
    rcases hrest : before.dropWhile isBlank with _ | ⟨y, rest⟩ <;> rw [hrest] at hx hnot <;>
      cases hx
    · exact hc
    · simpa using hnot
  last := by
    intro x hx
    rw [List.getLast?_append] at hx
    rcases hend : slashes.getLast? with _ | y <;> rw [hend] at hx
    · rw [List.getLast?_concat] at hx
      cases hx
      exact hc
    · cases hx
      rw [hslashes x (List.mem_of_getLast? hend)]
      decide

/-- Only an address that mixes slashes and blanks at its end, or has nothing else, keeps some. -/
lemma sound_iff (host : Option Text) :
    Sound (given host) ↔ ∃ c, (bare host).getLast? = some c ∧ ¬ isBlank c := by
  constructor
  · rintro ⟨before, c, slashes, after, hgiven, ⟨hblank, hslash⟩, hslashes, hafter⟩
    have hbare : bare host = before.dropWhile isBlank ++ [c] := by
      rw [bare, hgiven, ← strips_iff.mp (strips_slashes hblank hslashes hafter)]
      refine Text.rdropWhile_append (by simpa using hslashes) ?_
      rw [List.getLast?_concat]
      rintro _ ⟨⟩
      simpa using hslash
    exact ⟨c, by rw [hbare, List.getLast?_concat], hblank⟩
  · rintro ⟨c, hbare, hc⟩
    obtain ⟨init, hinit⟩ := List.getLast?_eq_some_iff.mp hbare
    obtain ⟨before, after, hgiven, -, hafter⟩ := (strips_trim (given host)).around
    obtain ⟨slashes, htrim, hslashes⟩ := trim_given_eq host
    refine ⟨before ++ init, c, slashes, after, ?_, ⟨hc, last_bare host c hbare⟩, hslashes, hafter⟩
    rw [hgiven, ← htrim, hinit]
    simp

/-! ### Normalising again -/

lemma Normal.ne_nil (h : Normal s) : s ≠ [] := by
  rintro rfl
  exact absurd (List.infix_nil.mp h.scheme) (by decide)

lemma given_some (h : s ≠ []) : given (some s) = s := by
  cases s with
  | nil => exact absurd rfl h
  | cons c s => rfl

/-- In its normal form an address has nothing that any step of normalising acts on. -/
lemma normalize_of_normal (h : Normal s) : normalize (some s) = s := by
  have htrim : s = s.trim := by
    refine strips_iff.mp ⟨⟨[], [], ?_, List.forall_mem_nil _, List.forall_mem_nil _⟩, h.head, ?_⟩
    · rw [List.nil_append, List.append_nil]
    · exact fun c hc => (h.last c hc).1
  have hbare : bare (some s) = s := by
    rw [bare, given_some h.ne_nil, ← htrim]
    refine List.rdropWhile_eq_self_iff.mpr fun hne => ?_
    simpa using (h.last _ (List.getLast?_eq_some_getLast hne)).2
  have htcp : ¬ tcp.isPrefixOf s := List.isPrefixOf_iff_prefix.not.mpr h.not_tcp
  have hscheme := (Text.includes_iff s _).mpr h.scheme
  rw [normalize_eq, hbare, readTcpAsHttp, if_neg htcp, withScheme, if_pos hscheme]

/-- Schemes have no blanks, so writing one or replacing it brings none and takes none. -/
lemma countP_normalize (host : Option Text) :
    (normalize host).countP isBlank = (bare host).countP isBlank := by
  have hhttp : http.countP isBlank = 0 := by decide
  have htcp : tcp.countP isBlank = 0 := by decide
  have hscheme (s : Text) : (withScheme s).countP isBlank = s.countP isBlank := by
    rw [withScheme]
    split
    · rfl
    · rw [List.countP_append, hhttp, Nat.zero_add]
  rw [normalize_eq, hscheme, readTcpAsHttp]
  split
  · next h =>
    obtain ⟨rest, hrest⟩ := List.isPrefixOf_iff_prefix.mp h
    rw [← hrest, List.drop_left, List.countP_append, List.countP_append, hhttp, htcp]
  · rfl

/-- A blank at the end is taken off, and no blank comes in its place. -/
lemma countP_bare_lt {c : Char} (hlast : s.getLast? = some c) (hc : isBlank c) :
    (bare (some s)).countP isBlank < s.countP isBlank := by
  obtain ⟨init, rfl⟩ := List.getLast?_eq_some_iff.mp hlast
  obtain ⟨⟨before, after, hinit, hbefore, hafter⟩, hhead, hend⟩ := strips_trim init
  have htrim : Text.trim init = Text.trim (init ++ [c]) := by
    refine strips_iff.mp ⟨⟨before, after ++ [c], ?_, hbefore, ?_⟩, hhead, hend⟩
    · rw [← List.append_assoc, ← hinit]
    · exact List.forall_mem_append.mpr ⟨hafter, List.forall_mem_singleton.mpr hc⟩
  obtain ⟨slashes, hslashes, -⟩ := trim_given_eq (some (init ++ [c]))
  rw [given_some (List.concat_ne_nil c init), ← htrim] at hslashes
  have hcounts := congrArg (List.countP isBlank) hslashes
  have hheld := congrArg (List.countP isBlank) hinit
  have hone : [c].countP isBlank = 1 := by rw [List.countP_singleton, if_pos hc]
  simp only [List.countP_append] at hcounts hheld ⊢
  omega

/-- What an address lacks for its normal form: it is a scheme alone, or ends in a blank. -/
lemma eq_http_or_blank_of_not_normal (h : ¬ Normal (normalize host)) :
    normalize host = http ∨ ∃ c, (normalize host).getLast? = some c ∧ isBlank c := by
  rw [normal_normalize_iff] at h
  rcases hbare : (bare host).getLast? with _ | c
  · left
    rw [normalize_eq, List.getLast?_eq_none_iff.mp hbare]
    rfl
  · right
    refine ⟨c, by rw [getLast?_normalize, hbare, Option.some_or], ?_⟩
    by_contra hc
    exact h ⟨c, hbare, hc⟩

/-- The addresses that normalising leaves alone are those in normal form. -/
theorem normalize_eq_self_iff : normalize (some s) = s ↔ Normal s := by
  refine ⟨fun h => ?_, normalize_of_normal⟩
  by_contra hnot
  rw [← h] at hnot
  rcases eq_http_or_blank_of_not_normal hnot with hhttp | ⟨c, hlast, hc⟩
  · rw [h] at hhttp
    rw [hhttp] at h
    exact absurd h (by decide)
  · rw [h] at hlast
    have hlt := countP_bare_lt hlast hc
    rw [← countP_normalize, h] at hlt
    exact absurd hlt (lt_irrefl _)

/-- Done often enough, normalising leads to a normal form: each time either a blank at the end is
gone, or the scheme alone is taken for an address. -/
theorem exists_iterate_normal (host : Option Text) :
    ∃ n, Normal ((fun s => normalize (some s))^[n] (normalize host)) := by
  induction hblanks : (normalize host).countP isBlank using Nat.strong_induction_on
    generalizing host with
  | _ blanks ih =>
    by_cases hnormal : Normal (normalize host)
    · exact ⟨0, hnormal⟩
    · rcases eq_http_or_blank_of_not_normal hnormal with hhttp | ⟨c, hlast, hc⟩
      · refine ⟨1, ?_⟩
        rw [hhttp]
        exact (normal_normalize_iff (some http)).mpr ⟨':', by decide, by decide⟩
      · have hlt := countP_bare_lt hlast hc
        rw [← countP_normalize, hblanks] at hlt
        obtain ⟨n, hn⟩ := ih _ hlt (some (normalize host)) rfl
        exact ⟨n + 1, hn⟩

/-! ### The path behind it -/

/-- The slashes between an address and a path behind it, with the one that the path begins with. -/
def joint (s : Text) : Text := (s ++ ['/']).rtakeWhile (· = '/')

/-- There is exactly one slash unless the address ends in another. -/
lemma joint_eq_iff : joint s = ['/'] ↔ s.getLast? ≠ some '/' := by
  rw [joint, List.rtakeWhile_concat_pos _ _ _ (by simp), List.append_left_eq_self,
    List.rtakeWhile_eq_nil_iff]
  cases s using List.reverseRecOn with
  | nil => simp
  | append_singleton s c => simp

lemma getLast?_normalize_ne_slash_iff (host : Option Text) :
    (normalize host).getLast? ≠ some '/' ↔ ∃ c ∈ (given host).trim, c ≠ '/' := by
  have hnil : bare host = [] ↔ ∀ c ∈ (given host).trim, c = '/' := by
    rw [bare, List.rdropWhile_eq_nil_iff]
    simp
  rw [getLast?_normalize]
  rcases hbare : (bare host).getLast? with _ | c
  · have hall := hnil.mp (List.getLast?_eq_none_iff.mp hbare)
    simpa using hall
  · have hsome : ∃ c ∈ (given host).trim, c ≠ '/' := by
      by_contra h
      rw [hnil.mpr (by simpa using h)] at hbare
      cases hbare
    have hne := last_bare host c hbare
    simpa [hne] using hsome

/-- **Normal form**: whatever address is given, normalising gives one with a scheme that is not
`tcp`, and without blanks in front. It is in normal form, and stays as it is when normalised again,
exactly if the address given is sound, so if slashes and blanks are not mixed at its end and it has
something else. A path behind it is set off by exactly one slash exactly if the address given is
more than slashes with blanks around. -/
theorem normalize_normal_iff (host : Option Text) :
    let s := normalize host
    ("://".toList <:+: s ∧ ¬ tcp <+: s ∧ ∀ c ∈ s.head?, ¬ isBlank c) ∧
      (Normal s ↔ Sound (given host)) ∧ (normalize (some s) = s ↔ Sound (given host)) ∧
      (joint s = ['/'] ↔ ∃ c ∈ (given host).trim, c ≠ '/') := by
  intro s
  have hnormal : Normal s ↔ Sound (given host) :=
    (normal_normalize_iff host).trans (sound_iff host).symm
  have hjoint := joint_eq_iff.trans (getLast?_normalize_ne_slash_iff host)
  exact ⟨⟨scheme_infix_normalize host, not_tcp_prefix_normalize host, head_normalize host⟩,
    hnormal, normalize_eq_self_iff.trans hnormal, hjoint⟩

/-- A blank before the slash at the end of an address is kept, and only goes the next time. -/
theorem not_always_normal :
    ¬ ∀ host, Normal (normalize host) ∧ normalize (some (normalize host)) = normalize host := by
  intro h
  have hidem := (h (some ['a', ' ', '/'])).2
  exact absurd hidem (by decide)

end DockConsole.Host
