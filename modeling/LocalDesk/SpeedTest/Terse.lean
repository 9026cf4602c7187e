import LocalDesk.Data.Lines
import LocalDesk.Data.Lossy
import LocalDesk.Data.Words
import LocalDesk.SpeedTest.Deep

/-!
# Terse rows

`nmcli -t` puts a colon between the fields of a network and a backslash before every colon and
backslash in a field.  The rows come back as the networks, whatever their names are.
-/

namespace LocalDesk
namespace SpeedTest

open Text

def escapeTerse (field : List Char) : List Char :=
  field.flatMap fun c => if c = ':' ∨ c = '\\' then ['\\', c] else [c]

def joinTerse (fields : List (List Char)) : List Char := [':'].intercalate (fields.map escapeTerse)

theorem escapeTerse_cons (c : Char) (field : List Char) :
    escapeTerse (c :: field) =
      (if c = ':' ∨ c = '\\' then ['\\', c] else [c]) ++ escapeTerse field := by
  simp [escapeTerse]

theorem splitTerseFrom_escapeTerse (current field rest : List Char) :
    splitTerseFrom current (escapeTerse field ++ rest) = splitTerseFrom (current ++ field) rest := by
  induction field generalizing current with
  | nil => simp [escapeTerse]
  | cons c field ih =>
    have hstep : splitTerseFrom current (escapeTerse (c :: field) ++ rest) =
        splitTerseFrom (current ++ [c]) (escapeTerse field ++ rest) := by
      rw [escapeTerse_cons]
      by_cases hescaped : c = ':' ∨ c = '\\'
      · rw [if_pos hescaped]
        simp [splitTerseFrom]
      · rw [if_neg hescaped]
        rw [not_or] at hescaped
        show splitTerseFrom current (c :: (escapeTerse field ++ rest)) = _
        rw [splitTerseFrom]
        · exact fun h _ => hescaped.2 h
        · exact fun _ _ h _ => hescaped.2 h
        · exact hescaped.1
    rw [hstep, ih, List.append_assoc]
    rfl

theorem splitTerseFrom_joinTerse (current field : List Char) (fields : List (List Char)) :
    splitTerseFrom current (joinTerse (field :: fields)) = (current ++ field) :: fields := by
  induction fields generalizing current field with
  | nil =>
    have hline : joinTerse [field] = escapeTerse field ++ [] := by simp [joinTerse]
    rw [hline, splitTerseFrom_escapeTerse, splitTerseFrom]
  | cons next fields ih =>
    have hline : joinTerse (field :: next :: fields) =
        escapeTerse field ++ ':' :: joinTerse (next :: fields) := by
      simp [joinTerse, List.intercalate]
    rw [hline, splitTerseFrom_escapeTerse, splitTerseFrom, ih, List.nil_append]

theorem splitTerse_joinTerse (field : List Char) (fields : List (List Char)) :
    splitTerse (joinTerse (field :: fields)) = field :: fields :=
  splitTerseFrom_joinTerse [] field fields

def OneLine (text : List Char) : Prop := '\n' ∉ text ∧ '\r' ∉ text

structure SeenNetwork where
  bssid : List Char
  ssid : List Char
  signal : Nat
  bars : List Char
  channel : Nat
  security : List Char
  band : List Char
  device : List Char
  bssid_nonempty : bssid ≠ []
  signal_fits : signal ≤ 2 ^ 32 - 1
  channel_fits : channel ≤ 2 ^ 32 - 1
  oneLine : ∀ text ∈ [bssid, ssid, bars, security, band, device], OneLine text

namespace SeenNetwork

/-- `BSSID,SSID,SIGNAL,BARS,CHAN,SECURITY,BAND,DEVICE` -/
def fields (network : SeenNetwork) : List (List Char) :=
  [network.bssid, network.ssid, Nat.toDigits 10 network.signal, network.bars,
    Nat.toDigits 10 network.channel, network.security, network.band, network.device]

def row (network : SeenNetwork) : NmcliWifiRow where
  bssid := toAsciiLowercase network.bssid
  ssid := if network.ssid = [] then hiddenSsid else network.ssid
  signalPercent := some network.signal
  signalBars := nonEmptyField network.bars
  channel := some network.channel
  security := nonEmptyField network.security
  band := nonEmptyField network.band
  device := nonEmptyField network.device

end SeenNetwork

/-- What `nmcli` prints for a scan. -/
def scanText (networks : List SeenNetwork) : List Char :=
  networks.flatMap fun network => joinTerse network.fields ++ ['\n']

theorem oneLine_toDigits (n : Nat) : OneLine (Nat.toDigits 10 n) := by
  have hword := isWord_toDigits n
  constructor
  · intro hmem
    have hsolid := hword.2 _ hmem
    revert hsolid
    decide
  · intro hmem
    have hsolid := hword.2 _ hmem
    revert hsolid
    decide

theorem SeenNetwork.oneLine_fields (network : SeenNetwork) :
    ∀ field ∈ network.fields, OneLine field := by
  have hline := network.oneLine
  have hsignal := oneLine_toDigits network.signal
  have hchannel := oneLine_toDigits network.channel
  simp only [List.forall_mem_cons] at hline
  simp only [fields, List.forall_mem_cons]
  exact ⟨hline.1, hline.2.1, hsignal, hline.2.2.1, hchannel, hline.2.2.2.1, hline.2.2.2.2.1,
    hline.2.2.2.2.2.1, hline.2.2.2.2.2.2⟩

theorem mem_escapeTerse {c : Char} {field : List Char} (h : c ∈ escapeTerse field) :
    c = '\\' ∨ c ∈ field := by
  obtain ⟨d, hd, hc⟩ := List.mem_flatMap.mp h
  split_ifs at hc
  · rw [List.mem_cons, List.mem_singleton] at hc
    obtain hc | hc := hc
    · exact .inl hc
    · exact .inr (hc ▸ hd)
  · exact .inr (List.mem_singleton.mp hc ▸ hd)

theorem mem_joinTerse {c : Char} {fields : List (List Char)} (h : c ∈ joinTerse fields) :
    c = ':' ∨ c = '\\' ∨ ∃ field ∈ fields, c ∈ field := by
  induction fields with
  | nil => simp [joinTerse] at h
  | cons field fields ih =>
    have hparts : c ∈ escapeTerse field ∨ c = ':' ∨ c ∈ joinTerse fields := by
      cases fields with
      | nil =>
        simp [joinTerse] at h
        exact .inl h
      | cons next fields =>
        simp [joinTerse, List.intercalate] at h
        simp [joinTerse, List.intercalate]
        tauto
    obtain hfield | hcolon | hrest := hparts
    · obtain hslash | hmem := mem_escapeTerse hfield
      · exact .inr (.inl hslash)
      · exact .inr (.inr ⟨field, List.mem_cons_self, hmem⟩)
    · exact .inl hcolon
    · obtain hcolon | hslash | ⟨other, hother, hmem⟩ := ih hrest
      · exact .inl hcolon
      · exact .inr (.inl hslash)
      · exact .inr (.inr ⟨other, List.mem_cons_of_mem _ hother, hmem⟩)

theorem SeenNetwork.oneLine_joinTerse (network : SeenNetwork) :
    OneLine (joinTerse network.fields) := by
  have hfields := network.oneLine_fields
  constructor
  · intro hmem
    obtain hcolon | hslash | ⟨field, hfield, hmem⟩ := mem_joinTerse hmem
    · revert hcolon
      decide
    · revert hslash
      decide
    · exact (hfields field hfield).1 hmem
  · intro hmem
    obtain hcolon | hslash | ⟨field, hfield, hmem⟩ := mem_joinTerse hmem
    · revert hcolon
      decide
    · revert hslash
      decide
    · exact (hfields field hfield).2 hmem

theorem lines_scanText (networks : List SeenNetwork) :
    lines (scanText networks) = networks.map fun network => joinTerse network.fields := by
  have hcut : Lines.Cut '\n' (networks.map fun network => joinTerse network.fields ++ ['\n']) := by
    induction networks with
    | nil => exact .nil
    | cons network networks ih => exact .line network.oneLine_joinTerse.1 ih
  have hchomp : ∀ network : SeenNetwork, Lines.chomp (joinTerse network.fields ++ ['\n']) =
      joinTerse network.fields := by
    intro network
    have hreturn : (joinTerse network.fields).getLast? ≠ some '\r' :=
      fun hlast => network.oneLine_joinTerse.2 (List.mem_of_getLast? hlast)
    rw [Lines.chomp, List.getLast?_concat, if_pos rfl, List.dropLast_concat, if_neg hreturn]
  rw [scanText, List.flatMap_def, Lines.lines_flatten hcut, List.map_map]
  exact List.map_congr_left fun network _ => hchomp network

theorem parseNmcliWifiRow_joinTerse (network : SeenNetwork) :
    parseNmcliWifiRow (joinTerse network.fields) = some network.row := by
  have hsignal := parseUnsigned_toDigits network.signal_fits
  have hchannel := parseUnsigned_toDigits network.channel_fits
  rw [parseNmcliWifiRow, SeenNetwork.fields, splitTerse_joinTerse]
  dsimp only
  rw [if_neg network.bssid_nonempty, hsignal, hchannel]
  rfl

theorem nmcliRows_scanText (networks : List SeenNetwork) :
    nmcliRows (utf8 (scanText networks)) = networks.map SeenNetwork.row := by
  have hkept : (networks.map fun network => joinTerse network.fields).filter (· ≠ []) =
      networks.map fun network => joinTerse network.fields := by
    rw [List.filter_eq_self]
    intro line hline
    obtain ⟨network, -, rfl⟩ := List.mem_map.mp hline
    have hrow := parseNmcliWifiRow_joinTerse network
    apply decide_eq_true
    intro hnil
    rw [hnil] at hrow
    cases hrow
  rw [nmcliRows, fromUtf8Lossy_utf8, lines_scanText, hkept, List.filterMap_map]
  have hrows : parseNmcliWifiRow ∘ (fun network : SeenNetwork => joinTerse network.fields) =
      some ∘ SeenNetwork.row := funext parseNmcliWifiRow_joinTerse
  rw [hrows, ← List.filterMap_map, List.filterMap_some]

/-- Every list of fields comes back from its line, and every scan from what is printed for it. -/
theorem terse_round_trip :
    (∀ field fields, splitTerse (joinTerse (field :: fields)) = field :: fields) ∧
      ∀ networks, nmcliRows (utf8 (scanText networks)) = networks.map SeenNetwork.row :=
  ⟨splitTerse_joinTerse, nmcliRows_scanText⟩

/-- Colons and backslashes in a name, also at its end. -/
example : splitTerse (joinTerse [['a', ':', 'b'], [], ['\\', '\\'], ['c', '\\']]) =
    [['a', ':', 'b'], [], ['\\', '\\'], ['c', '\\']] := by decide

end SpeedTest
end LocalDesk
