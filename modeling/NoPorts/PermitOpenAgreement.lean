import NoPorts.CDaemonPermitopen

/-! The permit-open check of the Dart daemon, and when the two checks of the C daemon
agree with it. -/
namespace NoPorts.PermitOpen
open Lib CDaemon

/-! ### sshnpd_impl.dart -/

def localSshdHost : String := "localhost"

/-- What a permit-open check is asked for. -/
inductive OpenRequest where
  | nptSessionRequest (requestedHost : String) (requestedPort : ℕ)
  | sshnpSessionRequest
  /-- Of any other type. -/
  | unknown

/-- `_permittedToOpen` -/
def permittedToOpen (localSshdPort : ℕ) (po : List String) : OpenRequest → Bool
  | .nptSessionRequest requestedHost requestedPort =>
    po.contains (requestedHost ++ ":" ++ toString requestedPort) ||
      po.contains ("*:" ++ toString requestedPort) ||
      po.contains (requestedHost ++ ":*") ||
      po.contains "*:*"
  | .sshnpSessionRequest =>
    po.contains (localSshdHost ++ ":" ++ toString localSshdPort) ||
      po.contains ("*:" ++ toString localSshdPort) ||
      po.contains (localSshdHost ++ ":*") ||
      po.contains "*:*"
  | .unknown => false

/-! ### Entries all three checks read -/

/-- An entry whose host holds no comma or colon and whose port is `*` or a number
from 1 to 65535. -/
structure OpenEntry where
  host : String
  /-- `none` is `*`. -/
  port : Option ℕ
  comma_not_mem : ',' ∉ host.toList
  colon_not_mem : ':' ∉ host.toList
  port_valid : ∀ p ∈ port, 1 ≤ p ∧ p ≤ 65535

namespace OpenEntry

def portText (e : OpenEntry) : String :=
  match e.port with
  | none => "*"
  | some n => toString n

def text (e : OpenEntry) : String := e.host ++ ":" ++ e.portText

end OpenEntry

/-- The connections a list of entries opens. -/
def opened (entries : List OpenEntry) : Set (String × ℕ) :=
  {c | ∃ e ∈ entries, (e.host = "*" ∨ e.host = c.1) ∧ (e.port = none ∨ e.port = some c.2)}

/-- What `strtoul` and `strtol` make of a decimal number before they look at its size:
no space or sign is taken off it, and nothing follows its digits. -/
theorem toString_scan (n : ℕ) : (toString n).toList.dropWhile isAsciiSpace = (toString n).toList ∧
    ((toString n).toList.head? == some '-') = false ∧
    dropPrefix ['+'] (toString n).toList = (toString n).toList ∧
    (toString n).toList.takeWhile Char.isDigit = (toString n).toList ∧
    (toString n).toList.dropWhile Char.isDigit = [] := by
  have hdigits := isDigit_of_mem_toString n
  have hne := toString_ne_nil n
  generalize (toString n).toList = s at hdigits hne
  obtain ⟨c, cs, rfl⟩ := List.exists_cons_of_ne_nil hne
  have hc := hdigits c List.mem_cons_self
  have hspace : isAsciiSpace c = false := by
    have hall : ∀ d ∈ [' ', '\t', '\r', '\n', '\x0c', '\x0b'], d.isDigit = false := by
      intro d hd
      simp only [List.mem_cons, List.not_mem_nil, or_false] at hd
      rcases hd with rfl | rfl | rfl | rfl | rfl | rfl <;> rfl
    by_contra h
    rw [isAsciiSpace, Bool.not_eq_false, List.contains_iff_mem] at h
    rw [hall c h] at hc
    cases hc
  have hminus : c ≠ '-' := by
    rintro rfl
    exact absurd hc (by decide)
  have hplus : '+' ≠ c := by
    rintro rfl
    exact absurd hc (by decide)
  refine ⟨?_, ?_, ?_, ?_, ?_⟩
  · rw [List.dropWhile_cons, hspace]
    rfl
  · simp [hminus]
  · simp only [dropPrefix, stripPrefix?, hplus, if_false, Option.getD_none]
  · exact List.takeWhile_eq_self_iff.mpr hdigits
  · exact List.dropWhile_eq_nil_iff.mpr hdigits

theorem strtoul_toString {n : ℕ} (h : n < ulongRange) :
    strtoul (toString n).toList = some (n, []) := by
  obtain ⟨hspace, hminus, hplus, htake, hdrop⟩ := toString_scan n
  have hcond : ¬((toString n).toList = [] ∨ ulongRange ≤ n) := by
    rintro (hnil | hle)
    · exact toString_ne_nil n hnil
    · omega
  simp only [strtoul, hspace, hminus, hplus, htake, hdrop, foldl_toString, Bool.false_eq_true,
    if_false, hcond]

theorem strtol_toString {n : ℕ} (h : n < longRange) :
    strtol (toString n).toList = some ((n : ℤ), []) := by
  obtain ⟨hspace, hminus, hplus, htake, hdrop⟩ := toString_scan n
  have hcond : ¬((toString n).toList = [] ∨ longRange ≤ n) := by
    rintro (hnil | hle)
    · exact toString_ne_nil n hnil
    · omega
  simp only [strtol, hspace, hminus, hplus, htake, hdrop, foldl_toString, Bool.false_eq_true,
    if_false, hcond]

theorem entryPort_toString {n : ℕ} (h : 1 ≤ n ∧ n ≤ 65535) :
    entryPort (toString n).toList = some n := by
  have hrange : n < ulongRange := by
    have : (65535 : ℕ) < ulongRange := by decide
    omega
  simp only [entryPort, strtoul_toString hrange, h, and_self, if_true]

theorem permitopenPort_toString {n : ℕ} (h : 1 ≤ n ∧ n ≤ 65535) :
    permitopenPort (toString n).toList = some n := by
  have hrange : n < longRange := by
    have : (65535 : ℕ) < longRange := by decide
    omega
  have hnum := strtol_toString hrange
  have hdigits := isDigit_of_mem_toString n
  generalize (toString n).toList = s at hnum hdigits
  unfold permitopenPort
  split
  · exact absurd (hdigits '*' List.mem_cons_self) (by decide)
  · have hcond : ¬((n : ℤ) < 1 ∨ 65535 < (n : ℤ)) := by omega
    simp only [hnum, hcond, if_false, Int.toNat_natCast]

namespace OpenEntry

theorem text_toList (e : OpenEntry) :
    e.text.toList = e.host.toList ++ ':' :: e.portText.toList := by
  simp [text]

theorem portText_eq_star {e : OpenEntry} : e.portText = "*" ↔ e.port = none := by
  unfold portText
  cases e.port with
  | none => exact iff_of_true rfl rfl
  | some n =>
    refine iff_of_false (fun h => ?_) (Option.some_ne_none n)
    have hstar := isDigit_of_mem_toString n '*' (by
      rw [show toString n = "*" from h]
      decide)
    exact absurd hstar (by decide)

theorem portText_eq_toString {e : OpenEntry} {n : ℕ} :
    e.portText = toString n ↔ e.port = some n := by
  cases hport : e.port with
  | none =>
    refine iff_of_false (fun h => ?_) (fun h => Option.some_ne_none n h.symm)
    have hstar : e.portText = "*" := portText_eq_star.mpr hport
    have hdigit := isDigit_of_mem_toString n '*' (by
      rw [← h, hstar]
      decide)
    exact absurd hdigit (by decide)
  | some m =>
    have htext : e.portText = toString m := by rw [portText, hport]
    rw [htext, toString_inj, Option.some.injEq]

theorem not_mem_portText (e : OpenEntry) {c : Char} (hc : c.isDigit = false) (hstar : c ≠ '*') :
    c ∉ e.portText.toList := by
  intro hmem
  unfold portText at hmem
  cases hport : e.port with
  | none =>
    rw [hport] at hmem
    exact hstar (List.mem_singleton.mp hmem)
  | some n =>
    rw [hport] at hmem
    rw [isDigit_of_mem_toString n c hmem] at hc
    cases hc

theorem colon_portText (e : OpenEntry) : ':' ∉ e.portText.toList :=
  e.not_mem_portText rfl (by decide)

theorem portText_unquoted (e : OpenEntry) (c : Char) (hc : c ∈ e.portText.toList) :
    isQuote c = false := by
  by_contra h
  have h : c = '"' ∨ c = '\'' := by
    simpa only [isQuote, Bool.not_eq_false, Bool.or_eq_true, beq_iff_eq] using h
  rcases h with rfl | rfl <;> exact e.not_mem_portText rfl (by decide) hc

end OpenEntry

/-- A text is cut at its last colon, so a host may hold colons. -/
theorem hostPort_eq_iff {host host' port port' : String} (hport : ':' ∉ port.toList) (hport' : ':' ∉ port'.toList) :
    host ++ ":" ++ port = host' ++ ":" ++ port' ↔ host = host' ∧ port = port' := by
  constructor
  · intro h
    have hlist : host.toList ++ ':' :: port.toList = host'.toList ++ ':' :: port'.toList := by
      have htoList := congrArg String.toList h
      simpa using htoList
    obtain ⟨hfrom, hbefore⟩ := cut_last (h := host.toList) hport
    obtain ⟨hfrom', hbefore'⟩ := cut_last (h := host'.toList) hport'
    constructor
    · rw [← String.toList_inj, ← hbefore, ← hbefore', hlist]
    · rw [← String.toList_inj]
      exact List.tail_eq_of_cons_eq (by rw [← hfrom, ← hfrom', hlist])
  · rintro ⟨rfl, rfl⟩
    rfl

/-! ### The policy's check -/

theorem entryPermits_text {e : OpenEntry} {host : String} {port : ℕ} :
    entryPermits host port e.text = true ↔
      (e.host = "*" ∨ e.host = host) ∧ (e.port = none ∨ e.port = some port) := by
  obtain ⟨hfrom, hbefore⟩ := cut_last (h := e.host.toList) e.colon_portText
  rw [entryPermits, e.text_toList, hfrom, hbefore]
  have hhost (h : String) : e.host.toList = h.toList ↔ e.host = h := String.toList_inj
  have hstar : e.portText.toList = ['*'] ↔ e.port = none := by
    rw [← OpenEntry.portText_eq_star, ← String.toList_inj]
    rfl
  have hport : e.port ≠ none → (entryPort e.portText.toList = some port ↔ e.port = some port) := by
    intro hne
    obtain ⟨n, hn⟩ := Option.ne_none_iff_exists'.mp hne
    rw [OpenEntry.portText_eq_toString.mpr hn, entryPort_toString (e.port_valid n hn), hn]
  simp only [Bool.and_eq_true, Bool.or_eq_true, beq_iff_eq, hstar]
  refine and_congr (or_congr (hhost "*") (hhost host)) ?_
  by_cases hnone : e.port = none
  · exact iff_of_true (Or.inl hnone) (Or.inl hnone)
  · exact or_congr Iff.rfl (hport hnone)

theorem policyPermitsOpen_texts {authorized : Bool} {entries : List OpenEntry} {host : String}
    {port : ℕ} : policyPermitsOpen ⟨authorized, entries.map OpenEntry.text⟩ host port = true ↔
      (host, port) ∈ opened entries := by
  simp only [policyPermitsOpen, List.any_map, List.any_eq_true, Function.comp, entryPermits_text,
    opened, Set.mem_ofPred_eq]

/-! ### The list the C daemon is started with -/

theorem readEntry_text (e : OpenEntry) :
    readEntry (e.host.toList, e.portText.toList) = some (e.host, e.port.getD 0) := by
  have hport : permitopenPort e.portText.toList = some (e.port.getD 0) := by
    cases hp : e.port with
    | none =>
      rw [OpenEntry.portText_eq_star.mpr hp]
      rfl
    | some n =>
      rw [OpenEntry.portText_eq_toString.mpr hp]
      exact permitopenPort_toString (e.port_valid n hp)
  simp only [readEntry, hport, Option.map_some, String.ofList_toList]

theorem mapM_readEntry (entries : List OpenEntry) :
    (entries.map fun e => (e.host.toList, e.portText.toList)).mapM readEntry =
      some (entries.map fun e => (e.host, e.port.getD 0)) := by
  induction entries with
  | nil => rfl
  | cons e entries ih =>
    rw [List.map_cons, List.mapM_cons, readEntry_text, ih]
    rfl

/-- The first entry's host does not begin with a quotation mark. -/
def Unquoted (entries : List OpenEntry) : Prop :=
  ∀ e ∈ entries.head?, ∀ c ∈ e.host.toList.head?, isQuote c = false

theorem joined_cons {e f : String} {entries : List String} :
    joined (e :: f :: entries) = e.toList ++ ',' :: joined (f :: entries) := by
  simp [joined]

theorem joined_singleton {e : String} : joined [e] = e.toList := by
  simp [joined]

/-- Nothing is trimmed off such a list. -/
theorem trimBy_joined {entries : List OpenEntry} (h : Unquoted entries) :
    trimBy isQuote (joined (entries.map OpenEntry.text)) = joined (entries.map OpenEntry.text) := by
  have hlast (e : OpenEntry) (entries : List OpenEntry) :
      ∃ c ∈ (joined ((e :: entries).map OpenEntry.text)).getLast?, isQuote c = false := by
    induction entries generalizing e with
    | nil =>
      have hne : e.portText.toList ≠ [] := by
        unfold OpenEntry.portText
        cases e.port with
        | none => decide
        | some n => exact toString_ne_nil n
      have hget := List.getLast?_eq_some_getLast hne
      refine ⟨e.portText.toList.getLast hne, ?_, ?_⟩
      · rw [List.map_singleton, joined_singleton, e.text_toList, List.getLast?_append,
          List.getLast?_cons, hget]
        rfl
      · exact e.portText_unquoted _ (List.getLast_mem hne)
    | cons f entries ih =>
      obtain ⟨c, hc, hquote⟩ := ih f
      refine ⟨c, ?_, hquote⟩
      rw [List.map_cons, List.map_cons, joined_cons, List.getLast?_append, List.getLast?_cons]
      rw [List.map_cons] at hc
      rw [hc]
      rfl
  cases entries with
  | nil => rfl
  | cons e entries =>
    obtain ⟨rest, hrest⟩ : ∃ rest,
        joined ((e :: entries).map OpenEntry.text) = e.host.toList ++ ':' :: rest := by
      cases entries with
      | nil => exact ⟨e.portText.toList, by rw [List.map_singleton, joined_singleton, e.text_toList]⟩
      | cons f entries =>
        exact ⟨e.portText.toList ++ ',' :: joined ((f :: entries).map OpenEntry.text), by
          rw [List.map_cons, List.map_cons, joined_cons, e.text_toList]
          simp⟩
    have hfirst : ∃ c ∈ (joined ((e :: entries).map OpenEntry.text)).head?, isQuote c = false := by
      rw [hrest]
      cases hhost : e.host.toList with
      | nil => exact ⟨':', rfl, rfl⟩
      | cons c cs => exact ⟨c, rfl, h e rfl c (by rw [hhost]; rfl)⟩
    have htrim := trimBy_append (l := []) (r := []) hfirst (hlast e entries)
    simpa using htrim

/-- Such a list is read entry by entry. -/
theorem parsePermitopen_texts {entries : List OpenEntry} (h : Unquoted entries) :
    parsePermitopen (joined (entries.map OpenEntry.text)) =
      if entries = [] then none else some (entries.map fun e => (e.host, e.port.getD 0)) := by
  cases entries with
  | nil => rfl
  | cons e entries =>
    rw [if_neg (List.cons_ne_nil e entries), ← mapM_readEntry]
    generalize hall : e :: entries = all at h
    have hne : all ≠ [] := by
      rw [← hall]
      exact List.cons_ne_nil e entries
    refine parsePermitopen_entries (n := 0) ?_ ?_ (fun hnil => hne (List.map_eq_nil_iff.mp hnil))
    · have hcomma : ∀ t ∈ (all.map OpenEntry.text).map String.toList, ',' ∉ t := by
        intro t ht hmem
        obtain ⟨text, htext, rfl⟩ := List.mem_map.mp ht
        obtain ⟨f, -, rfl⟩ := List.mem_map.mp htext
        rw [f.text_toList, List.mem_append, List.mem_cons] at hmem
        rcases hmem with hhost | hcolon | hport
        · exact f.comma_not_mem hhost
        · exact absurd hcolon (by decide)
        · exact f.not_mem_portText rfl (by decide) hport
      have hne' : (all.map OpenEntry.text).map String.toList ≠ [] := fun hnil =>
        hne (List.map_eq_nil_iff.mp (List.map_eq_nil_iff.mp hnil))
      rw [trimBy_joined h, joined, List.splitOn_intercalate ',' hcomma hne']
      simp only [List.map_map, List.replicate_zero, List.append_nil, Function.comp_def,
        OpenEntry.text_toList, entryText]
    · intro pair hpair
      obtain ⟨f, -, rfl⟩ := List.mem_map.mp hpair
      exact ⟨f.colon_not_mem, f.colon_portText⟩

theorem permitopenOpens_texts {entries : List OpenEntry} (h : Unquoted entries) {host : String}
    {port : ℕ} : permitopenOpens (joined (entries.map OpenEntry.text)) host port = true ↔
      (host, port) ∈ opened entries := by
  rw [permitopenOpens, parsePermitopen_texts h]
  cases entries with
  | nil =>
    refine iff_of_false Bool.false_ne_true ?_
    rintro ⟨e, he, -⟩
    exact List.not_mem_nil he
  | cons e entries =>
    rw [if_neg (List.cons_ne_nil e entries)]
    simp only [shouldPermitopen_iff]
    generalize e :: entries = all
    have hcode (f : OpenEntry) : (f.port.getD 0 = 0 ∨ f.port.getD 0 = port) ↔
        (f.port = none ∨ f.port = some port) := by
      cases hf : f.port with
      | none => exact iff_of_true (Or.inl rfl) (Or.inl rfl)
      | some n =>
        have hn := (f.port_valid n hf).1
        simp only [Option.getD_some, Option.some.injEq, reduceCtorEq, false_or]
        omega
    constructor
    · rintro ⟨_, hmem, hp, hh⟩
      obtain ⟨f, hf, rfl⟩ := List.mem_map.mp hmem
      exact ⟨f, hf, hh, (hcode f).mp hp⟩
    · rintro ⟨f, hf, hh, hp⟩
      exact ⟨_, List.mem_map_of_mem hf, (hcode f).mpr hp, hh⟩

/-! ### The Dart daemon's check -/

/-- Each entry is a host and the port of another entry. -/
theorem permittedToOpen_pairs {localSshdPort : ℕ} {entries : List (String × OpenEntry)} {host : String}
    {port : ℕ} : permittedToOpen localSshdPort (entries.map fun e => e.1 ++ ":" ++ e.2.portText)
      (.nptSessionRequest host port) = true ↔
      ∃ e ∈ entries, (e.1 = "*" ∨ e.1 = host) ∧ (e.2.port = none ∨ e.2.port = some port) := by
  have hport : ':' ∉ (toString port).toList := fun hmem =>
    absurd (isDigit_of_mem_toString port ':' hmem) (by decide)
  have hcontains (h p : String) (hp : ':' ∉ p.toList) :
      (entries.map fun e => e.1 ++ ":" ++ e.2.portText).contains (h ++ ":" ++ p) = true ↔
        ∃ e ∈ entries, e.1 = h ∧ e.2.portText = p := by
    rw [List.contains_iff_mem, List.mem_map]
    exact exists_congr fun e => and_congr_right fun _ => hostPort_eq_iff e.2.colon_portText hp
  have hstar (h : String) : h ++ ":*" = h ++ ":" ++ "*" := by
    rw [String.append_assoc]
    rfl
  have hwild : "*:" ++ toString port = "*" ++ ":" ++ toString port := rfl
  have hboth : "*:*" = "*" ++ ":" ++ "*" := rfl
  rw [permittedToOpen, hstar, hwild, hboth]
  simp only [Bool.or_eq_true, hcontains _ _ hport, hcontains _ "*" (by decide),
    OpenEntry.portText_eq_toString, OpenEntry.portText_eq_star]
  constructor
  · rintro (((⟨e, he, hh, hp⟩ | ⟨e, he, hh, hp⟩) | ⟨e, he, hh, hp⟩) | ⟨e, he, hh, hp⟩)
    · exact ⟨e, he, Or.inr hh, Or.inr hp⟩
    · exact ⟨e, he, Or.inl hh, Or.inr hp⟩
    · exact ⟨e, he, Or.inr hh, Or.inl hp⟩
    · exact ⟨e, he, Or.inl hh, Or.inl hp⟩
  · rintro ⟨e, he, hh | hh, hp | hp⟩
    · exact Or.inr ⟨e, he, hh, hp⟩
    · exact Or.inl (Or.inl (Or.inr ⟨e, he, hh, hp⟩))
    · exact Or.inl (Or.inr ⟨e, he, hh, hp⟩)
    · exact Or.inl (Or.inl (Or.inl ⟨e, he, hh, hp⟩))

theorem permittedToOpen_texts {localSshdPort : ℕ} {entries : List OpenEntry} {host : String}
    {port : ℕ} : permittedToOpen localSshdPort (entries.map OpenEntry.text)
      (.nptSessionRequest host port) = true ↔ (host, port) ∈ opened entries := by
  have hpairs : entries.map OpenEntry.text =
      (entries.map fun e => (e.host, e)).map fun e => e.1 ++ ":" ++ e.2.portText := by
    rw [List.map_map]
    rfl
  rw [hpairs, permittedToOpen_pairs]
  constructor
  · rintro ⟨_, hmem, hopens⟩
    obtain ⟨e, he, rfl⟩ := List.mem_map.mp hmem
    exact ⟨e, he, hopens⟩
  · rintro ⟨e, he, hopens⟩
    exact ⟨(e.host, e), List.mem_map_of_mem he, hopens⟩

/-! ### Malformed entries -/

/-- Entries the policy's check skips. -/
def skippedByPolicy (entry : String) : Bool :=
  match fromLast ':' entry.toList with
  | [] => true
  | _ :: portStr => portStr != ['*'] && (entryPort portStr).isNone

/-- Entries that the Dart daemon's check can find for no request: no host with `*`, and
none with a port. -/
def NeverRequested (entry : String) : Prop :=
  ∀ host, entry ≠ host ++ ":*" ∧ ∀ port : ℕ, 1 ≤ port → port ≤ 65535 →
    entry ≠ host ++ ":" ++ toString port

theorem entryPermits_skipped {entry host : String} {port : ℕ} (h : skippedByPolicy entry = true) :
    entryPermits host port entry = false := by
  unfold skippedByPolicy at h
  unfold entryPermits
  split
  · rfl
  · rename_i portStr hfrom
    rw [hfrom] at h
    obtain ⟨hstar, hnone⟩ := Bool.and_eq_true_iff.mp h
    rw [Option.isNone_iff_eq_none.mp hnone, beq_eq_false_iff_ne.mpr (bne_iff_ne.mp hstar)]
    simp

theorem any_insert {α : Type*} {p : α → Bool} {pre post : List α} {a : α} (ha : p a = false) :
    (pre ++ a :: post).any p = (pre ++ post).any p := by
  simp only [List.any_append, List.any_cons, ha, Bool.false_or]

theorem contains_insert {pre post : List String} {entry a : String} (ha : entry ≠ a) :
    (pre ++ entry :: post).contains a = (pre ++ post).contains a := by
  have hbeq : (a == entry) = false := beq_eq_false_iff_ne.mpr ha.symm
  simp only [List.contains_eq_any_beq]
  exact any_insert hbeq

theorem permittedToOpen_insert {localSshdPort : ℕ} {pre post : List String} {entry host : String}
    {port : ℕ} (h : NeverRequested entry) (hport : 1 ≤ port ∧ port ≤ 65535) :
    permittedToOpen localSshdPort (pre ++ entry :: post) (.nptSessionRequest host port) =
      permittedToOpen localSshdPort (pre ++ post) (.nptSessionRequest host port) := by
  have hexact : entry ≠ host ++ ":" ++ toString port := (h host).2 port hport.1 hport.2
  have hhost : entry ≠ "*:" ++ toString port := (h "*").2 port hport.1 hport.2
  have hany : entry ≠ host ++ ":*" := (h host).1
  have hboth : entry ≠ "*:*" := (h "*").1
  simp only [permittedToOpen, contains_insert hexact, contains_insert hhost, contains_insert hany,
    contains_insert hboth]

/-- An entry malformed to `parse_permitopen` leaves nothing open. -/
theorem permitopenOpens_malformed {pre post : List String} {entry host : String} {port : ℕ}
    (h : MalformedEntry entry)
    (hlast : EmptyLast ((trimBy isQuote (joined (pre ++ entry :: post))).splitOn ',')) :
    permitopenOpens (joined (pre ++ entry :: post)) host port = false := by
  obtain ⟨seg, hseg, hbad⟩ := h.in_list pre post
  rw [permitopenOpens, parsePermitopen_malformed hlast hseg hbad]

/-- The three checks give one answer, and none permits more for a malformed entry. The C
daemon's list is of entries of which none is empty before one that is not, and whose
first host does not begin with a quotation mark: it trims these. -/
theorem checks_agree {localSshdPort : ℕ} {host : String} {port : ℕ}
    (hport : 1 ≤ port ∧ port ≤ 65535) :
    (∀ (authorized : Bool) (entries : List OpenEntry),
      policyPermitsOpen ⟨authorized, entries.map OpenEntry.text⟩ host port =
        permittedToOpen localSshdPort (entries.map OpenEntry.text)
          (.nptSessionRequest host port) ∧
      (Unquoted entries →
        permitopenOpens (joined (entries.map OpenEntry.text)) host port =
          permittedToOpen localSshdPort (entries.map OpenEntry.text)
            (.nptSessionRequest host port))) ∧
    (∀ (authorized : Bool) (pre post : List String) (entry : String),
      skippedByPolicy entry = true →
      policyPermitsOpen ⟨authorized, pre ++ entry :: post⟩ host port = true →
      policyPermitsOpen ⟨authorized, pre ++ post⟩ host port = true) ∧
    (∀ (pre post : List String) (entry : String), MalformedEntry entry →
      EmptyLast ((trimBy isQuote (joined (pre ++ entry :: post))).splitOn ',') →
      permitopenOpens (joined (pre ++ entry :: post)) host port = true →
      permitopenOpens (joined (pre ++ post)) host port = true) ∧
    (∀ (pre post : List String) (entry : String), NeverRequested entry →
      permittedToOpen localSshdPort (pre ++ entry :: post) (.nptSessionRequest host port) = true →
      permittedToOpen localSshdPort (pre ++ post) (.nptSessionRequest host port) = true) := by
  refine ⟨fun authorized entries => ⟨?_, fun hquote => ?_⟩, ?_, ?_, ?_⟩
  · rw [Bool.eq_iff_iff, policyPermitsOpen_texts, permittedToOpen_texts]
  · rw [Bool.eq_iff_iff, permitopenOpens_texts hquote, permittedToOpen_texts]
  · intro authorized pre post entry hskip hpermits
    rwa [policyPermitsOpen, any_insert (entryPermits_skipped hskip)] at hpermits
  · intro pre post entry hbad hlast hpermits
    rw [permitopenOpens_malformed hbad hlast] at hpermits
    cases hpermits
  · intro pre post entry hnever hpermits
    rwa [permittedToOpen_insert hnever hport] at hpermits

def databaseEntry : OpenEntry := ⟨"db", some 5432, by decide, by decide, by decide⟩

/-- The checks at a list with one good entry, and at that list with an entry that has no
port. -/
theorem checks_agree_sample :
    policyPermitsOpen ⟨true, ["db:5432"]⟩ "db" 5432 =
      permittedToOpen 22 ["db:5432"] (.nptSessionRequest "db" 5432) ∧
    permitopenOpens (joined ["db:5432"]) "db" 5432 =
      permittedToOpen 22 ["db:5432"] (.nptSessionRequest "db" 5432) ∧
    (policyPermitsOpen ⟨true, ["db", "db:5432"]⟩ "db" 5432 = true →
      policyPermitsOpen ⟨true, ["db:5432"]⟩ "db" 5432 = true) ∧
    (permitopenOpens (joined ["db", "db:5432"]) "db" 5432 = true →
      permitopenOpens (joined ["db:5432"]) "db" 5432 = true) ∧
    (permittedToOpen 22 ["db", "db:5432"] (.nptSessionRequest "db" 5432) = true →
      permittedToOpen 22 ["db:5432"] (.nptSessionRequest "db" 5432) = true) := by
  obtain ⟨hagree, hpolicy, hparse, hdart⟩ :=
    @checks_agree 22 "db" 5432 (by decide)
  have htext : [databaseEntry].map OpenEntry.text = ["db:5432"] := by decide +kernel
  have hnocolon {host port : List Char} : "db".toList ≠ host ++ ':' :: port := by
    intro heq
    have hmem : ':' ∈ "db".toList := by
      rw [heq]
      exact List.mem_append_right _ List.mem_cons_self
    exact absurd hmem (by decide)
  have hquote : Unquoted [databaseEntry] := by
    intro e he c hc
    obtain rfl := Option.some.inj he
    obtain rfl := Option.some.inj hc
    rfl
  rw [← htext]
  refine ⟨(hagree true [databaseEntry]).1, (hagree true [databaseEntry]).2 hquote,
    hpolicy true [] ([databaseEntry].map OpenEntry.text) "db" (by decide), ?_, ?_⟩
  · refine hparse [] ([databaseEntry].map OpenEntry.text) "db"
      ⟨"db".toList, by decide, by decide, fun _ _ heq => absurd heq hnocolon⟩ ?_
    rw [htext]
    unfold EmptyLast
    decide
  · refine hdart [] ([databaseEntry].map OpenEntry.text) "db" fun host => ⟨fun heq => ?_,
      fun port _ _ heq => ?_⟩
    · refine @hnocolon host.toList ['*'] ?_
      rw [heq, String.toList_append]
      rfl
    · refine @hnocolon host.toList (toString port).toList ?_
      rw [heq]
      simp

def quotedEntry : OpenEntry := ⟨"\"db", some 5432, by decide, by decide, by decide⟩

/-- A quotation mark before the first host is trimmed off the C daemon's list alone. -/
theorem checks_agree_quoted :
    policyPermitsOpen ⟨true, [quotedEntry.text]⟩ "\"db" 5432 = true ∧
    permittedToOpen 22 [quotedEntry.text] (.nptSessionRequest "\"db" 5432) = true ∧
    permitopenOpens (joined [quotedEntry.text]) "\"db" 5432 = false := by
  decide +kernel

end NoPorts.PermitOpen
