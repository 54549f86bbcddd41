import PandaProxy.Python.Bytes
import PandaProxy.Python.Delimited
import PandaProxy.Python.Dict
import PandaProxy.Python.Numerals
import PandaProxy.Python.Pieces

namespace PandaProxy.Ssdp

open Python

def ssdpPort : Nat := 2021

def broadcast : String := "255.255.255.255"

def defaultDevModel : String := "C12"

def defaultDevName : String := "PandaProxy"

def defaultDevSignal : String := "-44"

def defaultVersionGrace : Nat := 15

-- What `time.gmtime` tells.
structure GmTime where
  weekday : Fin 7
  day : Nat
  month : Fin 12
  year : Nat
  hour : Nat
  minute : Nat
  second : Nat

def padded (width n : Nat) : String := .ofList (n.repr.toList.leftpad width '0')

def weekdays : List String := ["Mon", "Tue", "Wed", "Thu", "Fri", "Sat", "Sun"]

def months : List String := ["Jan", "Feb", "Mar", "Apr", "May", "Jun", "Jul", "Aug", "Sep", "Oct", "Nov", "Dec"]

-- `formatdate(usegmt=True)`
def formatdate (now : GmTime) : String :=
  weekdays.get now.weekday ++ ", " ++ padded 2 now.day ++ " " ++ months.get now.month ++ " " ++ padded 4 now.year ++ " " ++
    padded 2 now.hour ++ ":" ++ padded 2 now.minute ++ ":" ++ padded 2 now.second ++ " GMT"

structure Announcement where
  advertiseIp : String
  serial : String
  devModel : String
  devName : String
  devVersion : String
  devSignal : String

def Announcement.lines (now : GmTime) (a : Announcement) : List String :=
  ["HTTP/1.1 200 OK",
    "Server: Buildroot/2018.02-rc3 UPnP/1.0 ssdpd/1.8",
    "Date: " ++ formatdate now,
    "Location: " ++ a.advertiseIp,
    "ST: urn:bambulab-com:device:3dprinter:1",
    "EXT:",
    "USN: " ++ a.serial,
    "Cache-Control: max-age=1800",
    "DevModel.bambu.com: " ++ a.devModel,
    "DevName.bambu.com: " ++ a.devName,
    "DevSignal.bambu.com: " ++ a.devSignal,
    "DevConnect.bambu.com: lan",
    "DevBind.bambu.com: free",
    "Devseclink.bambu.com: 0",
    "DevInf.bambu.com:",
    "DevVersion.bambu.com: " ++ a.devVersion]

def buildAnnouncement (now : GmTime) (a : Announcement) : List UInt8 :=
  Utf8.encode (Str.join "\r\n" (a.lines now) ++ "\r\n\r\n")

def crlf : List Char := ['\r', '\n']

def store (out : Dict String String) (line : String) : Dict String String :=
  if line = "" then out
  else
    let (name, value) := Str.partition ':' line
    Dict.set out (Str.strip name) (Str.strip value)

-- How the repository's tests read an announcement; `none` is the `UnicodeDecodeError`.
def headers (payload : List UInt8) : Option (Dict String String) :=
  (Utf8.decodeStrict payload).map fun t => (((Pieces.cut crlf 0 t.toList).map String.ofList).tail).foldl store []

def Announcement.headers (now : GmTime) (a : Announcement) : Dict String String :=
  [("Server", "Buildroot/2018.02-rc3 UPnP/1.0 ssdpd/1.8"), ("Date", formatdate now), ("Location", a.advertiseIp),
    ("ST", "urn:bambulab-com:device:3dprinter:1"), ("EXT", ""), ("USN", a.serial), ("Cache-Control", "max-age=1800"),
    ("DevModel.bambu.com", a.devModel), ("DevName.bambu.com", a.devName), ("DevSignal.bambu.com", a.devSignal),
    ("DevConnect.bambu.com", "lan"), ("DevBind.bambu.com", "free"), ("Devseclink.bambu.com", "0"), ("DevInf.bambu.com", ""),
    ("DevVersion.bambu.com", a.devVersion)]

structure Clean (value : String) : Prop where
  stripped : Str.strip value = value
  oneLine : ¬ crlf <:+: value.toList

structure Announcement.Clean (a : Announcement) : Prop where
  advertiseIp : Ssdp.Clean a.advertiseIp
  serial : Ssdp.Clean a.serial
  devModel : Ssdp.Clean a.devModel
  devName : Ssdp.Clean a.devName
  devVersion : Ssdp.Clean a.devVersion
  devSignal : Ssdp.Clean a.devSignal

section Reading

variable {cs : List Char} {out : Dict String String} {line name value : String}

theorem clean_strip (h : ¬ crlf <:+: cs) : Clean (Str.strip (.ofList cs)) := by
  have hstrip : Chars.strip isSpace cs <:+: cs :=
    (List.rdropWhile_prefix isSpace (cs.dropWhile isSpace)).isInfix.trans (List.dropWhile_suffix isSpace).isInfix
  refine ⟨?_, ?_⟩
  · simp only [Str.strip, String.toList_ofList, Chars.strip_strip]
  · simp only [Str.strip, String.toList_ofList]
    exact fun hwithin => h (hwithin.trans hstrip)

theorem mem_set {d : Dict String String} {k v : String} {p : String × String} (h : p ∈ Dict.set d k v) : p ∈ d ∨ p = (k, v) := by
  induction d with
  | nil => exact .inr (List.mem_singleton.mp h)
  | cons q d ih =>
      rw [Dict.set] at h
      split at h
      · rcases List.mem_cons.mp h with rfl | h
        · exact .inr rfl
        · exact .inl (List.mem_cons_of_mem q h)
      · rcases List.mem_cons.mp h with rfl | h
        · exact .inl List.mem_cons_self
        · exact (ih h).imp (List.mem_cons_of_mem q) id

theorem store_clean (hline : ¬ crlf <:+: line.toList) (hout : ∀ p ∈ out, Clean p.2) : ∀ p ∈ store out line, Clean p.2 := by
  unfold store
  split
  · exact hout
  · intro p hp
    rcases mem_set hp with hp | rfl
    · exact hout p hp
    · refine clean_strip fun hwithin => hline (hwithin.trans ?_)
      exact (List.drop_suffix _ _).isInfix

theorem headers_clean {payload : List UInt8} (h : headers payload = some out) : ∀ p ∈ out, Clean p.2 := by
  obtain ⟨t, _, rfl⟩ := Option.map_eq_some_iff.mp h
  have hlines : ∀ line ∈ ((Pieces.cut crlf 0 t.toList).map String.ofList).tail, ¬ crlf <:+: line.toList := by
    intro line hline
    obtain ⟨cs, hcs, rfl⟩ := List.mem_map.mp (List.mem_of_mem_tail hline)
    rw [String.toList_ofList]
    exact Pieces.cut_free (by decide) 0 hcs
  have hfold : ∀ (lines : List String) (out : Dict String String), (∀ line ∈ lines, ¬ crlf <:+: line.toList) →
      (∀ p ∈ out, Clean p.2) → ∀ p ∈ lines.foldl store out, Clean p.2 := by
    intro lines
    induction lines with
    | nil => exact fun _ _ hout => hout
    | cons line lines ih =>
        intro out hlines hout
        exact ih _ (fun l hl => hlines l (List.mem_cons_of_mem line hl)) (store_clean (hlines line List.mem_cons_self) hout)
  exact hfold _ _ hlines (by simp)

theorem store_header (hname : ':' ∉ name.toList) (hstrip : Str.strip name = name) (hvalue : Str.strip value = value) :
    store out (name ++ ": " ++ value) = Dict.set out name value := by
  have hpartition : Chars.partition ':' (name ++ ": " ++ value).toList = (name.toList, ' ' :: value.toList) := by
    have htake : (name.toList ++ ':' :: ' ' :: value.toList).takeWhile (fun c => c != ':') = name.toList := by
      rw [List.takeWhile_append_of_pos]
      · simp
      · intro c hc
        rw [bne_iff_ne]
        rintro rfl
        exact hname hc
    have htext : (name ++ ": " ++ value).toList = name.toList ++ ':' :: ' ' :: value.toList := by simp
    rw [htext, Chars.partition, htake]
    simp
  have hblank : Str.strip (.ofList (' ' :: value.toList)) = Str.strip value := by
    simp [Str.strip, Chars.strip, isSpace]
  have hne : name ++ ": " ++ value ≠ "" := by
    intro h
    have hlist := congrArg String.toList h
    simp at hlist
  simp only [store, if_neg hne, Str.partition, hpartition, String.ofList_toList, hstrip, hblank, hvalue]

theorem store_bare (hname : ':' ∉ name.toList) (hstrip : Str.strip name = name) :
    store out (name ++ ":") = Dict.set out name "" := by
  have hpartition : Chars.partition ':' (name ++ ":").toList = (name.toList, []) := by
    have htake : (name.toList ++ [':']).takeWhile (fun c => c != ':') = name.toList := by
      rw [List.takeWhile_append_of_pos]
      · simp
      · intro c hc
        rw [bne_iff_ne]
        rintro rfl
        exact hname hc
    have htext : (name ++ ":").toList = name.toList ++ [':'] := by simp
    rw [htext, Chars.partition, htake]
    simp
  have hne : name ++ ":" ≠ "" := by
    intro h
    have hlist := congrArg String.toList h
    simp at hlist
  have hempty : Str.strip (.ofList []) = "" := by simp [Str.strip, Chars.strip]
  simp only [store, if_neg hne, Str.partition, hpartition, String.ofList_toList, hstrip, hempty]

end Reading

section Building

variable {now : GmTime} {a : Announcement} {pre v line : List Char}

theorem crlf_append (hpre : '\r' ∉ pre) (hv : ¬ crlf <:+: v) : ¬ crlf <:+: pre ++ v := by
  intro h
  rcases List.infix_append_iff_ne_nil.mp h with h | h | ⟨l, r, hl, _, hcrlf, hsuffix, _⟩
  · exact hpre (h.subset List.mem_cons_self)
  · exact hv h
  · obtain ⟨c, l, rfl⟩ := List.exists_cons_of_ne_nil hl
    have hc : '\r' = c := (List.cons.inj hcrlf).1
    subst hc
    exact hpre (hsuffix.subset List.mem_cons_self)

-- Where `\r\n` begins in a line that is followed by one, it is the one that follows.
theorem crlf_ends (hline : ¬ crlf <:+: line) (q : List Char) (hq : q ≠ []) (hsuffix : q <:+ line) : ¬ crlf <+: q ++ crlf := by
  intro h
  obtain ⟨c, q, rfl⟩ := List.exists_cons_of_ne_nil hq
  cases q with
  | nil =>
      simp only [crlf, List.singleton_append, List.cons_prefix_cons] at h
      exact absurd h.2.1 (by decide)
  | cons d q =>
      have hstart : crlf <+: c :: d :: q := List.prefix_of_prefix_length_le h (List.prefix_append _ _) (by simp [crlf])
      exact hline (hstart.isInfix.trans hsuffix.isInfix)

theorem padded_digits {width n : Nat} {c : Char} (h : c ∈ (padded width n).toList) : c.isDigit = true := by
  rw [padded, String.toList_ofList, List.leftpad, List.mem_append] at h
  rcases h with h | h
  · rw [List.eq_of_mem_replicate h]
    rfl
  · exact Python.Int.isDigit_of_mem_repr h

theorem formatdate_oneLine (now : GmTime) : '\r' ∉ (formatdate now).toList := by
  have hdigits : ∀ width n, '\r' ∉ (padded width n).toList := by
    intro width n h
    exact absurd (padded_digits h) (by decide)
  have hweekday : ∀ i : Fin 7, '\r' ∉ (weekdays.get i).toList := by decide
  have hmonth : ∀ i : Fin 12, '\r' ∉ (months.get i).toList := by decide
  simp only [formatdate, String.toList_append, List.mem_append, not_or]
  refine ⟨⟨⟨⟨⟨⟨⟨⟨⟨⟨⟨⟨⟨hweekday _, ?_⟩, hdigits _ _⟩, ?_⟩, hmonth _⟩, ?_⟩, hdigits _ _⟩, ?_⟩, hdigits _ _⟩, ?_⟩, hdigits _ _⟩, ?_⟩, hdigits _ _⟩, ?_⟩ <;> decide

theorem formatdate_strip (now : GmTime) : Str.strip (formatdate now) = formatdate now := by
  have hstrip : Chars.strip isSpace (formatdate now).toList = (formatdate now).toList := by
    rw [Chars.strip_eq_self_iff]
    refine ⟨fun c hc => ?_, fun c hc => ?_⟩
    · have hne : ∀ i : Fin 7, (weekdays.get i).toList ≠ [] := by decide
      have hfirst : ∀ i : Fin 7, ((weekdays.get i).toList.head?.all fun c => !isSpace c) = true := by decide
      obtain ⟨d, rest, hd⟩ := List.exists_cons_of_ne_nil (hne now.weekday)
      have hd' := hfirst now.weekday
      simp only [formatdate, String.toList_append, hd, List.cons_append, List.head?_cons] at hc hd'
      cases hc
      simpa using hd'
    · simp only [formatdate, String.toList_append] at hc
      rw [List.getLast?_append_of_ne_nil _ (by decide)] at hc
      cases hc
      rfl
  rw [Str.strip, hstrip, String.ofList_toList]

theorem formatdate_clean (now : GmTime) : Clean (formatdate now) :=
  ⟨formatdate_strip now, fun h => formatdate_oneLine now (h.subset List.mem_cons_self)⟩

theorem lines_oneLine (h : a.Clean) : ∀ line ∈ a.lines now, ¬ crlf <:+: line.toList := by
  have hplain : ∀ {line : String}, '\r' ∉ line.toList → ¬ crlf <:+: line.toList := fun hnot hwithin =>
    hnot (hwithin.subset List.mem_cons_self)
  have hvalue : ∀ {name value : String}, '\r' ∉ name.toList → Clean value → ¬ crlf <:+: (name ++ value).toList := by
    intro name value hname hclean
    rw [String.toList_append]
    exact crlf_append hname hclean.oneLine
  simp only [Announcement.lines, List.forall_mem_cons, List.not_mem_nil, false_imp_iff, forall_const, and_true]
  exact ⟨hplain (by decide), hplain (by decide), hvalue (by decide) (formatdate_clean now), hvalue (by decide) h.advertiseIp,
    hplain (by decide), hplain (by decide), hvalue (by decide) h.serial, hplain (by decide), hvalue (by decide) h.devModel,
    hvalue (by decide) h.devName, hvalue (by decide) h.devSignal, hplain (by decide), hplain (by decide), hplain (by decide),
    hplain (by decide), hvalue (by decide) h.devVersion⟩

theorem cut_text (h : a.Clean) : (Pieces.cut crlf 0 (Str.join "\r\n" (a.lines now) ++ "\r\n\r\n").toList).map String.ofList =
    a.lines now ++ ["", ""] := by
  have htext : (Str.join "\r\n" (a.lines now) ++ "\r\n\r\n").toList =
      crlf.intercalate ((a.lines now).map String.toList) ++ (crlf ++ crlf) := by
    rw [String.toList_append, Str.toList_join]
    rfl
  have hparts : ∀ p ∈ (a.lines now).map String.toList, ∀ q, q ≠ [] → q <:+ p → ¬ crlf <+: q ++ crlf := by
    intro p hp
    obtain ⟨line, hline, rfl⟩ := List.mem_map.mp hp
    exact crlf_ends (lines_oneLine h line hline)
  rw [htext, Pieces.cut_intercalate (by decide) (by simp [Announcement.lines]) hparts, List.map_append, List.map_map]
  have hid : String.ofList ∘ String.toList = id := funext fun _ => String.ofList_toList
  rw [hid, List.map_id]
  rfl

-- The line that carries a header; two of them have no value, and no blank for one.
def headerLine (p : String × String) : String :=
  if p.1 = "EXT" ∨ p.1 = "DevInf.bambu.com" then p.1 ++ ":" else p.1 ++ ": " ++ p.2

theorem lines_headers (now : GmTime) (a : Announcement) : a.lines now = "HTTP/1.1 200 OK" :: (a.headers now).map headerLine := by
  simp [Announcement.lines, Announcement.headers, headerLine]

structure Readable (p : String × String) : Prop where
  name : ':' ∉ p.1.toList
  stripped : Str.strip p.1 = p.1
  value : Clean p.2
  bare : p.1 = "EXT" ∨ p.1 = "DevInf.bambu.com" → p.2 = ""

theorem store_headerLine {out : Dict String String} {p : String × String} (h : Readable p) : store out (headerLine p) = Dict.set out p.1 p.2 := by
  unfold headerLine
  split
  · next hbare => rw [store_bare h.name h.stripped, h.bare hbare]
  · exact store_header h.name h.stripped h.value.stripped

theorem foldl_store {fields : List (String × String)} (h : ∀ p ∈ fields, Readable p) :
    ∀ out : Dict String String, ((out ++ fields).map Prod.fst).Nodup → (fields.map headerLine).foldl store out = out ++ fields := by
  induction fields with
  | nil => exact fun out _ => (List.append_nil out).symm
  | cons p fields ih =>
      intro out hnodup
      have hfresh : ∀ q ∈ out, q.1 ≠ p.1 := by
        intro q hq
        rw [List.map_append, List.nodup_append] at hnodup
        exact hnodup.2.2 _ (List.mem_map_of_mem hq) _ List.mem_cons_self
      rw [List.map_cons, List.foldl_cons, store_headerLine (h p List.mem_cons_self), Dict.set_fresh hfresh]
      rw [ih (fun q hq => h q (List.mem_cons_of_mem p hq)), List.append_assoc, List.singleton_append]
      rwa [List.append_assoc, List.singleton_append]

theorem headers_readable (h : a.Clean) : ∀ p ∈ a.headers now, Readable p := by
  have hplain : ∀ {name value : String}, ':' ∉ name.toList → Str.strip name = name → Clean value →
      ¬ (name = "EXT" ∨ name = "DevInf.bambu.com") → Readable (name, value) :=
    fun hname hstrip hvalue hnot => ⟨hname, hstrip, hvalue, fun hbare => absurd hbare hnot⟩
  have hfixed : ∀ {value : String}, Str.strip value = value → '\r' ∉ value.toList → Clean value :=
    fun hstrip hnot => ⟨hstrip, fun hwithin => hnot (hwithin.subset List.mem_cons_self)⟩
  have hempty : Clean "" := hfixed (by decide) (by decide)
  have hbare : ∀ {name : String}, ':' ∉ name.toList → Str.strip name = name → Readable (name, "") :=
    fun hname hstrip => ⟨hname, hstrip, hempty, fun _ => rfl⟩
  simp only [Announcement.headers, List.forall_mem_cons, List.not_mem_nil, false_imp_iff, forall_const, and_true]
  exact ⟨hplain (by decide) (by decide) (hfixed (by decide) (by decide)) (by decide),
    hplain (by decide) (by decide) (formatdate_clean now) (by decide), hplain (by decide) (by decide) h.advertiseIp (by decide),
    hplain (by decide) (by decide) (hfixed (by decide) (by decide)) (by decide), hbare (by decide) (by decide),
    hplain (by decide) (by decide) h.serial (by decide), hplain (by decide) (by decide) (hfixed (by decide) (by decide)) (by decide),
    hplain (by decide) (by decide) h.devModel (by decide), hplain (by decide) (by decide) h.devName (by decide),
    hplain (by decide) (by decide) h.devSignal (by decide), hplain (by decide) (by decide) (hfixed (by decide) (by decide)) (by decide),
    hplain (by decide) (by decide) (hfixed (by decide) (by decide)) (by decide),
    hplain (by decide) (by decide) (hfixed (by decide) (by decide)) (by decide), hbare (by decide) (by decide),
    hplain (by decide) (by decide) h.devVersion (by decide)⟩

theorem headers_build (h : a.Clean) : headers (buildAnnouncement now a) = some (a.headers now) := by
  rw [headers, buildAnnouncement, Utf8.decodeStrict_encode, Option.map_some, cut_text h, lines_headers, List.cons_append, List.tail_cons,
    List.foldl_append, foldl_store (headers_readable h) [] (by simp [Announcement.headers]), List.nil_append]
  rfl

-- What was to be announced is read back exactly when no value brings a line of its own or blanks around it.
theorem announcement_reads_back (now : GmTime) (a : Announcement) : headers (buildAnnouncement now a) = some (a.headers now) ↔ a.Clean := by
  refine ⟨fun h => ?_, headers_build⟩
  have hclean := headers_clean h
  simp only [Announcement.headers, List.forall_mem_cons, List.not_mem_nil, false_imp_iff, forall_const, and_true] at hclean
  obtain ⟨_, _, hip, _, _, hserial, _, hmodel, hname, hsignal, _, _, _, _, hversion⟩ := hclean
  exact ⟨hip, hserial, hmodel, hname, hversion, hsignal⟩

end Building

end PandaProxy.Ssdp
