import LocalDesk.Data.FirstSeen
import LocalDesk.Data.Json
import LocalDesk.Data.Percent

/-!
# Disks

The disks of a report are grouped by the device, the file system and the size, which are put
together into one text and taken apart again.  The text is taken apart at its first and its last
separator, and so a device with a separator in its name is shown as another one.
-/

namespace LocalDesk
namespace SystemInfo

open Json Text Grouped FirstSeen

structure SystemInfoEntry where
  key : String
  value : List Char
  deriving DecidableEq

structure SystemInfoGroup where
  title : Option (List Char)
  entries : List SystemInfoEntry
  deriving DecidableEq

inductive NormalizeError where
  | notArray
  | noObjectResult
  deriving DecidableEq

def isNull : Value → Bool
  | .null => true
  | _ => false

def isObject : Value → Bool
  | .object _ => true
  | _ => false

def resultObj (value : Value) : Option Value := (value.get "result").filter fun found => !isNull found

def stringOf (value : Value) (key : String) : Option (List Char) :=
  (((value.get key).bind Value.asStr).map trim).filter (· ≠ [])

def objectOf (value : Value) (key : String) : Option Value := (value.get key).filter isObject

def u64Of (value : Value) (key : String) : Option Nat := (value.get key).bind Value.asU64

/-- How sizes and shares of sizes are shown, which is a matter of floating-point numbers. -/
structure Formatters where
  formatBytes : Nat → List Char
  formatPercent : Nat → Nat → List Char

/-- Whether a text can be the offset of a time behind its sign. -/
def isOffset (text : List Char) : Bool := text.all fun c => c.isDigit || c = ':'

def formatIsoTimestamp (value : List Char) : List Char :=
  let value := trim value
  if value = [] then value
  else
    let cut : Option (List Char × List Char) :=
      match rsplitOnce '+' value with
      | some (front, rest) => some (front, '+' :: rest)
      | none => (rsplitOnce '-' value).map fun parts => (parts.1, '-' :: parts.2)
    let parts : List Char × Option (List Char) :=
      match cut with
      | some (front, offset) =>
        if 10 < utf8Length front ∧ isOffset offset.tail then (front, some offset) else (value, none)
      | none => (value, none)
    let body := (parts.1.takeWhile (· ≠ '.')).map fun c => if c = 'T' then ' ' else c
    match parts.2 with
    | some offset => body ++ [' ', '('] ++ offset ++ [')']
    | none => body

structure DiskRecord where
  used : Nat
  total : Nat
  available : Option Nat
  mountpoint : List Char
  mountFrom : List Char
  filesystem : List Char
  created : Option (List Char)
  deriving DecidableEq

def unknown : List Char := ['u', 'n', 'k', 'n', 'o', 'w', 'n']

/-- A device of the report, which must have its sizes and the point where it is mounted. -/
def readDisk (device : Value) : Option DiskRecord :=
  match (objectOf device "bytes").bind fun bytes => u64Of bytes "used",
    (objectOf device "bytes").bind fun bytes => u64Of bytes "total",
    stringOf device "mountpoint" with
  | some used, some total, some mountpoint =>
    some
      { used
        total
        available := (objectOf device "bytes").bind fun bytes => u64Of bytes "available"
        mountpoint
        mountFrom := (stringOf device "mountFrom").getD unknown
        filesystem := (stringOf device "filesystem").getD unknown
        created := stringOf device "createTime" }
  | _, _, _ => none

def dot : Char := '·'

def keyText (mountFrom filesystem : List Char) (total : Nat) : List Char :=
  mountFrom ++ dot :: (filesystem ++ dot :: Nat.toDigits 10 total)

namespace DiskRecord

def key (record : DiskRecord) : List Char :=
  keyText record.mountFrom record.filesystem record.total

def usage (format : Formatters) (record : DiskRecord) : List Char :=
  format.formatBytes record.used ++ [' ', '/', ' '] ++ format.formatBytes record.total ++
    [' ', '('] ++ format.formatPercent record.used record.total ++ [')', ' ', dot, ' '] ++
    ['可', '用', ' '] ++ (record.available.map format.formatBytes).getD unknown

end DiskRecord

structure MergedDisk where
  key : List Char
  mountpoints : List (List Char)
  usage : List Char
  created : Option (List Char)
  deriving DecidableEq

section Build

variable (format : Formatters)

def MergedDisk.fresh (record : DiskRecord) : MergedDisk :=
  ⟨record.key, [record.mountpoint], record.usage format, record.created⟩

def MergedDisk.add (record : DiskRecord) (disk : MergedDisk) : MergedDisk :=
  { disk with mountpoints := see disk.mountpoints record.mountpoint }

def mergeDisks (records : List DiskRecord) : List MergedDisk :=
  records.foldl (fun merged record =>
    upsert MergedDisk.key record.key (MergedDisk.add record) (.fresh format record) merged) []

end Build

def decodeKey (key : List Char) : List Char × List Char :=
  let parts := (splitOnce dot key).getD ([], [])
  (parts.1, ((rsplitOnce dot parts.2).map Prod.fst).getD unknown)

def deviceText (mountFrom filesystem : List Char) : List Char :=
  mountFrom ++ [' ', dot, ' '] ++ filesystem

def diskGroup (mountFrom filesystem : List Char) (mountpoints : List (List Char))
    (usage : List Char) (created : Option (List Char)) : SystemInfoGroup where
  title := none
  entries :=
    [⟨"device", deviceText mountFrom filesystem⟩, ⟨"mounts", ['、'].intercalate mountpoints⟩,
      ⟨"usage", usage⟩] ++
    (created.map fun time => ⟨"created", formatIsoTimestamp time⟩).toList

def MergedDisk.group (disk : MergedDisk) : SystemInfoGroup :=
  diskGroup (decodeKey disk.key).1 (decodeKey disk.key).2 disk.mountpoints disk.usage disk.created

def buildDisk (format : Formatters) (value : Value) : Except NormalizeError (List SystemInfoGroup) :=
  match resultObj value with
  | none => .error .noObjectResult
  | some result =>
    match result.asArray with
    | none => .ok []
    | some devices => .ok ((mergeDisks format (devices.filterMap readDisk)).map MergedDisk.group)

def DiskRecord.disk (record : DiskRecord) : List Char × List Char × Nat :=
  (record.mountFrom, record.filesystem, record.total)

def recordsOf (value : Value) : List DiskRecord :=
  (((resultObj value).bind Value.asArray).getD []).filterMap readDisk

section Groups

variable (format : Formatters)

/-- The row of a disk that some records have in common, with the usage of the first of them. -/
def diskRow (key : List Char) (records : List DiskRecord) : MergedDisk :=
  ⟨key, firstSeen (records.map DiskRecord.mountpoint),
    (records.head?.map (DiskRecord.usage format)).getD [], records.head?.bind DiskRecord.created⟩

/-- One group for every disk, in the order in which the disks are first seen, with all of its
mount points. -/
def diskGroups (records : List DiskRecord) : List SystemInfoGroup :=
  (firstSeen (records.map DiskRecord.disk)).map fun disk =>
    let row := diskRow format [] (records.filter fun record => record.disk = disk)
    diskGroup disk.1 disk.2.1 row.mountpoints row.usage row.created

/-- A section without a result is refused, and any other shows all of its disks. -/
def ShowsDisks (value : Value) : Prop :=
  buildDisk format value =
    if (resultObj value).isNone then .error .noObjectResult
    else .ok (diskGroups format (recordsOf value))

end Groups

theorem mergeDisks_eq (format : Formatters) (records : List DiskRecord) :
    mergeDisks format records = (firstSeen (records.map DiskRecord.key)).map fun key =>
      diskRow format key (records.filter fun record => record.key = key) := by
  apply foldl_upsert
  · exact fun key records => rfl
  · exact fun record => rfl
  · intro record key records hne
    have hhead : (records ++ [record]).head? = records.head? := by
      obtain ⟨first, rest, rfl⟩ := List.exists_cons_of_ne_nil hne
      rfl
    rw [diskRow, diskRow, MergedDisk.add, hhead, List.map_append, List.map_singleton,
      firstSeen_concat]

theorem buildDisk_eq (format : Formatters) (value : Value) :
    buildDisk format value =
      if (resultObj value).isNone then .error .noObjectResult
      else .ok ((mergeDisks format (recordsOf value)).map MergedDisk.group) := by
  unfold buildDisk recordsOf
  cases resultObj value with
  | none => rfl
  | some result =>
    cases hdevices : result.asArray with
    | none => simp [hdevices, mergeDisks]
    | some devices => simp [hdevices]

theorem dot_not_mem_toDigits (n : Nat) : dot ∉ Nat.toDigits 10 n := by
  intro hmem
  have hdigit := Nat.isDigit_of_mem_toDigits (by decide) (by decide) hmem
  revert hdigit
  decide

theorem decodeKey_keyText {front : List Char} (hfront : dot ∉ front) (back : List Char)
    (total : Nat) : decodeKey (front ++ dot :: (back ++ dot :: Nat.toDigits 10 total)) =
      (front, back) := by
  have hlast : rsplitOnce dot (back ++ dot :: Nat.toDigits 10 total) =
      some (back, Nat.toDigits 10 total) :=
    rsplitOnce_eq_some.mpr ⟨rfl, dot_not_mem_toDigits total⟩
  rw [decodeKey, splitOnce_append hfront]
  dsimp only [Option.getD_some]
  rw [hlast]
  rfl

theorem keyText_injective {a b : List Char × List Char × Nat} (ha : dot ∉ a.1) (hb : dot ∉ b.1)
    (h : keyText a.1 a.2.1 a.2.2 = keyText b.1 b.2.1 b.2.2) : a = b := by
  have hsplit : splitOnce dot (keyText a.1 a.2.1 a.2.2) = splitOnce dot (keyText b.1 b.2.1 b.2.2) :=
    congrArg _ h
  rw [keyText, keyText, splitOnce_append ha, splitOnce_append hb, Option.some.injEq,
    Prod.mk.injEq] at hsplit
  have hlast : ∀ (back : List Char) (total : Nat),
      rsplitOnce dot (back ++ dot :: Nat.toDigits 10 total) = some (back, Nat.toDigits 10 total) :=
    fun back total => rsplitOnce_eq_some.mpr ⟨rfl, dot_not_mem_toDigits total⟩
  have hrest := congrArg (rsplitOnce dot) hsplit.2
  rw [hlast, hlast, Option.some.injEq, Prod.mk.injEq] at hrest
  have htotal : a.2.2 = b.2.2 := by
    rw [← Nat.ofDigitChars_ten_toDigits (n := a.2.2), hrest.2, Nat.ofDigitChars_ten_toDigits]
  exact Prod.ext hsplit.1 (Prod.ext hrest.1 htotal)

theorem exists_cut {text : List Char} (h : dot ∈ text) :
    ∃ front back, text = front ++ dot :: back ∧ dot ∉ front := by
  induction text with
  | nil => cases h
  | cons c text ih =>
    by_cases hc : c = dot
    · exact ⟨[], text, by rw [hc]; rfl, List.not_mem_nil⟩
    · have hrest : dot ∈ text := (List.mem_cons.mp h).resolve_left fun hsame => hc hsame.symm
      obtain ⟨front, back, htext, hfront⟩ := ih hrest
      refine ⟨c :: front, back, by rw [htext]; rfl, ?_⟩
      rw [List.mem_cons, not_or]
      exact ⟨fun hsame => hc hsame.symm, hfront⟩

theorem deviceText_ne {mountFrom filesystem : List Char} {total : Nat} (h : dot ∈ mountFrom) :
    deviceText (decodeKey (keyText mountFrom filesystem total)).1
        (decodeKey (keyText mountFrom filesystem total)).2 ≠ deviceText mountFrom filesystem := by
  obtain ⟨front, back, rfl, hfront⟩ := exists_cut h
  have hkey : keyText (front ++ dot :: back) filesystem total =
      front ++ dot :: ((back ++ dot :: filesystem) ++ dot :: Nat.toDigits 10 total) := by
    simp [keyText]
  rw [hkey, decodeKey_keyText hfront]
  simp [deviceText, dot]

def encode (disk : List Char × List Char × Nat) : List Char := keyText disk.1 disk.2.1 disk.2.2

theorem keys_eq (records : List DiskRecord) :
    records.map DiskRecord.key = (records.map DiskRecord.disk).map encode := by
  rw [List.map_map]
  rfl

section Exactness

variable {format : Formatters} {records : List DiskRecord}

theorem groups_eq (hinjective : ∀ a ∈ records.map DiskRecord.disk,
      ∀ b ∈ records.map DiskRecord.disk, encode a = encode b → a = b) :
    (mergeDisks format records).map MergedDisk.group =
      (firstSeen (records.map DiskRecord.disk)).map fun disk =>
        (diskRow format (encode disk)
          (records.filter fun record => record.disk = disk)).group := by
  rw [mergeDisks_eq, keys_eq, firstSeen_map hinjective, List.map_map, List.map_map]
  apply List.map_congr_left
  intro disk hdisk
  have hmembers : records.filter (fun record => decide (record.key = encode disk)) =
      records.filter fun record => decide (record.disk = disk) := by
    apply List.filter_congr
    intro record hrecord
    rw [decide_eq_decide]
    constructor
    · exact hinjective _ (List.mem_map_of_mem hrecord) _ (mem_firstSeen.mp hdisk)
    · intro hsame
      rw [← hsame]
      rfl
  dsimp only [Function.comp_apply]
  rw [hmembers]

theorem groups_of_plain (h : ∀ record ∈ records, dot ∉ record.mountFrom) :
    (mergeDisks format records).map MergedDisk.group = diskGroups format records := by
  have hplain : ∀ disk ∈ records.map DiskRecord.disk, dot ∉ disk.1 := by
    intro disk hdisk
    obtain ⟨record, hrecord, rfl⟩ := List.mem_map.mp hdisk
    exact h record hrecord
  rw [groups_eq fun a ha b hb hsame => keyText_injective (hplain a ha) (hplain b hb) hsame]
  apply List.map_congr_left
  intro disk hdisk
  have hdecode : decodeKey (encode disk) = (disk.1, disk.2.1) :=
    decodeKey_keyText (hplain disk (mem_firstSeen.mp hdisk)) _ _
  rw [MergedDisk.group]
  have hkey : (diskRow format (encode disk)
      (records.filter fun record => record.disk = disk)).key = encode disk := rfl
  rw [hkey, hdecode]
  rfl

theorem plain_of_groups
    (h : (mergeDisks format records).map MergedDisk.group = diskGroups format records) :
    ∀ record ∈ records, dot ∉ record.mountFrom := by
  -- there are as many groups as disks only when the keys stay apart
  have hlength := congrArg List.length h
  rw [mergeDisks_eq, keys_eq, diskGroups, List.length_map, List.length_map, List.length_map]
    at hlength
  have hinjective := injective_of_length hlength
  rw [groups_eq hinjective, diskGroups] at h
  intro record hrecord hdot
  have hdisk : record.disk ∈ firstSeen (records.map DiskRecord.disk) :=
    mem_firstSeen.mpr (List.mem_map_of_mem hrecord)
  have hgroup := List.map_inj_left.mp h record.disk hdisk
  have hentries := congrArg SystemInfoGroup.entries hgroup
  have hdevice := congrArg SystemInfoEntry.value (List.cons.inj hentries).1
  exact deviceText_ne hdot hdevice

end Exactness

/-- The disks are shown as they are exactly when no device has the separator in its name. -/
theorem showsDisks_iff (format : Formatters) (value : Value) :
    ShowsDisks format value ↔ ∀ record ∈ recordsOf value, dot ∉ record.mountFrom := by
  unfold ShowsDisks
  rw [buildDisk_eq]
  cases hresult : resultObj value with
  | none => simp [recordsOf, hresult]
  | some result =>
    simp only [Option.isNone_some, Bool.false_eq_true, if_false, Except.ok.injEq]
    exact ⟨plain_of_groups, groups_of_plain⟩

def diskValue (mountFrom filesystem mountpoint : List Char) : Value :=
  .object [("bytes", .object [("used", .number (.posInt 1)), ("total", .number (.posInt 2))]),
    ("mountpoint", .string mountpoint), ("mountFrom", .string mountFrom),
    ("filesystem", .string filesystem)]

/-- The disk `a` with the file system `b·c`, and the disk `a·b` with the file system `c`. -/
def mixedSection : Value :=
  .object [("result", .array [diskValue ['a'] ['b', dot, 'c'] ['/', 'x'],
    diskValue ['a', dot, 'b'] ['c'] ['/', 'y']])]

def plainFormatters : Formatters where
  formatBytes := Nat.toDigits 10
  formatPercent used total := Nat.toDigits 10 (100 * used / total)

/-- The two disks come to one group. -/
theorem mixed_disks_merged :
    ¬ ∀ (format : Formatters) (value : Value), ShowsDisks format value := by
  intro h
  have hgroups := h plainFormatters mixedSection
  rw [ShowsDisks, buildDisk_eq] at hgroups
  have hsome : (resultObj mixedSection).isNone = false := by rfl
  rw [hsome] at hgroups
  have hlength := congrArg List.length (Except.ok.inj hgroups)
  revert hlength
  decide +kernel

end SystemInfo
end LocalDesk
