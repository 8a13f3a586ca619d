import WebsocketTest.Lib.Run
import WebsocketTest.Lib.Text
import WebsocketTest.Lib.Turns
import Mathlib.Logic.Function.Basic

/-!
# The rotation of the log files

A call of `LogWrite` or `LogWriteData` that finds its file too long renames it, to the name with the
next of ten numbers, and goes on with a new file. The number is counted for each type of log, and
several types write to one file.

The result of `rename` is not looked at: a rotation is the call. What `stat` and `fopen` come back
with is an input.

**`kept_iff`** — the last ten generations of every file are kept, in a run, exactly if in each step
that rotates a file it is the turn of the number that the step takes: if the type that triggers it
has as many rotations on its count as the file has had, and no file of another name is renamed to
the same path, which can happen from 1021 characters on, where the path is cut.

## Two counts that should be one

The number belongs to a type and the generations to a file. As long as a file is written by one type
the two go together. `FATALTYPE` and `ERRORTYPE` have the same suffix, and with it the same file; so
do others. Each counts for itself, so that the second of them to rotate the file takes a number that
the first has taken already, and the generation of that number is renamed over.

Both directions are proved for runs. The generations that are kept are a property of the list of
renames (`Kept`), and whether it is a type's turn can be told before the step. That a step out of
turn always loses one is the harder half: the number that it takes was taken by one of the last ten
rotations of the file (`Ordered.recent`), whichever of the ten it was.

A `rename` that fails is counted as made: its number is used up, and the file goes on growing.
Nothing is said of what `stat` sees then, which is an input of each call.
-/

set_option autoImplicit false

namespace WebsocketTest

open Lib Lib.Text Lib.Run

/-! ## The code -/

/-- What the two functions use of a `TLogType`. -/
structure TLogType where
  nFileNum : Nat
  sFileNameSuffix : Str
  nLogOff : Int

/-- `MAXLOGTYPE`. -/
def maxLogType : Nat := 100

/-- `MAXLOGSIZE`. -/
def maxLogSize : Nat := 5000000

/-- `CLogTypeArray::CLogTypeArray`, on static storage: the eight types from `LOGTYPE` on, which are
    `FATALTYPE`, `ERRORTYPE`, `WARNTYPE`, `INFOTYPE`, `DEBUGTYPE`, `TRACETYPE` and `DATATYPE`. -/
def cLogTypeArray : Nat → TLogType
  | 0 => ⟨0, ".frame".toList, 2⟩
  | 1 => ⟨0, ".error".toList, 1⟩
  | 2 => ⟨0, ".error".toList, 1⟩
  | 3 => ⟨0, ".warn".toList, 1⟩
  | 4 => ⟨0, ".trace".toList, 0⟩
  | 5 => ⟨0, ".trace".toList, 0⟩
  | 6 => ⟨0, ".trace".toList, 0⟩
  | 7 => ⟨0, ".data".toList, 1⟩
  | _ => ⟨0, [], 0⟩

/-- `%02d`. -/
def pad2 (n : Nat) : Str := if n < 10 then ['0', Nat.digitChar n] else Nat.toDigits 10 n

/-- `newPath`, an array of 1024 characters. -/
def newPath (sFileName : Str) (nFileNum : Nat) : Str :=
  (sFileName ++ '_' :: pad2 nFileNum).take 1023

/-- A call of `rename`, and the type it was made for. -/
structure Rotation where
  nLogType : Nat
  file : Str
  newPath : Str

/-- The static members. `rotations` is a ghost: the calls of `rename` so far, the last one first. -/
structure WriteRunInfo where
  sFileName : Str
  logTypeArray : Nat → TLogType
  rotations : List Rotation

/-- What a call comes upon: `st_size`, if `stat` succeeds, whether the file is opened, and the
    time. -/
structure LogIo where
  stSize : Option Nat
  opens : Bool
  dateTime : Str

namespace WriteRunInfo

/-- `CLogTypeArray::operator[]`. -/
def index (nTypeIndex : Nat) : Nat := if maxLogType ≤ nTypeIndex then 0 else nTypeIndex

def logType (w : WriteRunInfo) (n : Nat) : TLogType := w.logTypeArray (index n)

/-- `sFileName`, as the calls to the kernel see it. -/
def file (w : WriteRunInfo) (n : Nat) : Str :=
  cString (w.sFileName ++ (w.logType n).sFileNameSuffix)

def nextNum (w : WriteRunInfo) (n : Nat) : Nat := ((w.logType n).nFileNum + 1) % 10

def rotation (w : WriteRunInfo) (n : Nat) : Rotation :=
  ⟨n, w.file n, newPath (w.file n) (w.nextNum n)⟩

/-- `LOGTYPEARRAY[n] = t`. -/
def setLogType (w : WriteRunInfo) (n : Nat) (t : TLogType) : WriteRunInfo :=
  { w with logTypeArray := Function.update w.logTypeArray (index n) t }

/-- The block behind `st_size > MAXLOGSIZE`. -/
def rotate (w : WriteRunInfo) (n : Nat) : WriteRunInfo :=
  { w.setLogType n { w.logType n with nFileNum := w.nextNum n } with
    rotations := w.rotation n :: w.rotations }

/-- What the two functions share: the type is checked, the file is rotated, and `text` appended to
    it. -/
def logTo (w : WriteRunInfo) (nLogType : Int) (io : LogIo) (text : Str) :
    WriteRunInfo × Option (Str × Str) :=
  if nLogType < 0 ∨ (maxLogType : Int) ≤ nLogType then (w, none)
  else
    let n := nLogType.toNat
    if (w.logType n).nLogOff = 0 then (w, none)
    else
      let w' :=
        match io.stSize with
        | some size => if maxLogSize < size then w.rotate n else w
        | none => w
      (w', if io.opens then some (w.file n, text) else none)

/-- `LogWrite`; `formatted` is what the format makes of the arguments. -/
def logWrite (w : WriteRunInfo) (formatted : Str) (nLogType : Int) (io : LogIo) :
    WriteRunInfo × Option (Str × Str) :=
  w.logTo nLogType io (io.dateTime ++ ": ".toList ++ formatted ++ ['\n'])

/-- `LogWriteData`. -/
def logWriteData (w : WriteRunInfo) (pData formatted : Str) (nLogType : Int) (io : LogIo) :
    WriteRunInfo × Option (Str × Str) :=
  w.logTo nLogType io (io.dateTime ++ ": ".toList ++ formatted ++ ['\n'] ++ pData ++ ['\n'])

/-- `SetLogFlag`. The flag 2 stays. -/
def setLogFlag (w : WriteRunInfo) (iModLogType iFlag : Int) : WriteRunInfo :=
  if iModLogType < 0 ∨ (maxLogType : Int) ≤ iModLogType then w
  else
    let n := iModLogType.toNat
    if (w.logType n).nLogOff = 2 then w
    else w.setLogType n { w.logType n with nLogOff := iFlag }

end WriteRunInfo

/-- The calls of a run; a call that writes comes with what the file system says to it. -/
inductive LogCall
  | logWrite (formatted : Str) (nLogType : Int) (io : LogIo)
  | logWriteData (pData formatted : Str) (nLogType : Int) (io : LogIo)
  | setLogFlag (iModLogType iFlag : Int)

namespace WriteRunInfo

/-- The members before the first call, with the name that `Init` set. -/
def new (sFileName : Str) : WriteRunInfo := ⟨sFileName, cLogTypeArray, []⟩

def step (w : WriteRunInfo) : LogCall → WriteRunInfo
  | .logWrite formatted nLogType io => (w.logWrite formatted nLogType io).1
  | .logWriteData pData formatted nLogType io => (w.logWriteData pData formatted nLogType io).1
  | .setLogFlag iModLogType iFlag => w.setLogFlag iModLogType iFlag

/-- The type whose file a call of the two functions rotates. -/
def rotatesTo (w : WriteRunInfo) (nLogType : Int) (io : LogIo) : Option Nat :=
  if 0 ≤ nLogType ∧ nLogType < (maxLogType : Int) ∧ (w.logType nLogType.toNat).nLogOff ≠ 0 ∧
      ∃ size ∈ io.stSize, maxLogSize < size then
    some nLogType.toNat
  else none

def rotates (w : WriteRunInfo) : LogCall → Option Nat
  | .logWrite _ nLogType io => w.rotatesTo nLogType io
  | .logWriteData _ _ nLogType io => w.rotatesTo nLogType io
  | .setLogFlag _ _ => none

/-! ## What a step can do

A call writes at most one file, and rotates it at most once, before it writes. `SetLogFlag` changes
flags, which decide whether a call writes at all. -/

theorem index_of_lt {n : Nat} (h : n < maxLogType) : index n = n := if_neg (Nat.not_le_of_lt h)

theorem logType_setLogType (w : WriteRunInfo) (n m : Nat) (t : TLogType) :
    (w.setLogType n t).logType m = if index m = index n then t else w.logType m := by
  rw [logType, setLogType]
  simp only [Function.update_apply, logType]

/-- The suffixes stay, whatever is written to the table, so that a type keeps its file. -/
theorem file_setLogType (w : WriteRunInfo) (n m : Nat) {t : TLogType}
    (h : t.sFileNameSuffix = (w.logType n).sFileNameSuffix) :
    (w.setLogType n t).file m = w.file m := by
  rw [file, file, logType_setLogType]
  split
  · rename_i hm
    rw [h, logType, logType, hm]
    rfl
  · rfl

theorem file_rotate (w : WriteRunInfo) (n m : Nat) : (w.rotate n).file m = w.file m :=
  file_setLogType w n m rfl

theorem nFileNum_rotate {w : WriteRunInfo} {n m : Nat} (hn : n < maxLogType)
    (hm : m < maxLogType) :
    ((w.rotate n).logType m).nFileNum = if m = n then w.nextNum n else (w.logType m).nFileNum := by
  have hset := logType_setLogType w n m { w.logType n with nFileNum := w.nextNum n }
  rw [index_of_lt hn, index_of_lt hm] at hset
  have hrotate : (w.rotate n).logType m =
      (w.setLogType n { w.logType n with nFileNum := w.nextNum n }).logType m := rfl
  rw [hrotate, hset]
  split
  · rfl
  · rfl

/-- The names, the counts and what has been rotated are the same. -/
structure Same (w w' : WriteRunInfo) : Prop where
  rotations : w'.rotations = w.rotations
  file : ∀ n, w'.file n = w.file n
  nFileNum : ∀ n, (w'.logType n).nFileNum = (w.logType n).nFileNum

theorem Same.refl (w : WriteRunInfo) : Same w w := ⟨rfl, fun _ => rfl, fun _ => rfl⟩

theorem setLogFlag_same (w : WriteRunInfo) (n flag : Int) : Same w (w.setLogFlag n flag) := by
  rw [setLogFlag]
  split
  · exact .refl w
  · simp only
    split
    · exact .refl w
    · refine ⟨rfl, fun m => file_setLogType w _ m rfl, fun m => ?_⟩
      rw [logType_setLogType]
      split
      · rename_i hm
        rw [logType, logType, hm]
      · rfl

theorem logTo_cases (w : WriteRunInfo) (nLogType : Int) (io : LogIo) (text : Str) :
    (w.rotatesTo nLogType io = none ∧ (w.logTo nLogType io text).1 = w) ∨
      ∃ n, w.rotatesTo nLogType io = some n ∧ n < maxLogType ∧
        (w.logTo nLogType io text).1 = w.rotate n := by
  rw [rotatesTo, logTo]
  by_cases hrange : nLogType < 0 ∨ (maxLogType : Int) ≤ nLogType
  · rw [if_pos hrange, if_neg (by omega)]
    exact .inl ⟨rfl, rfl⟩
  · rw [if_neg hrange]
    simp only
    by_cases hoff : (w.logType nLogType.toNat).nLogOff = 0
    · rw [if_pos hoff, if_neg (fun h => h.2.2.1 hoff)]
      exact .inl ⟨rfl, rfl⟩
    · rw [if_neg hoff]
      cases hsize : io.stSize with
      | none =>
        rw [if_neg fun ⟨_, _, _, size, hmem, _⟩ => nomatch hmem]
        exact .inl ⟨rfl, rfl⟩
      | some size =>
        by_cases hlong : maxLogSize < size
        · rw [if_pos ⟨by omega, by omega, hoff, size, rfl, hlong⟩]
          refine .inr ⟨_, rfl, by omega, ?_⟩
          simp only [if_pos hlong]
        · rw [if_neg fun ⟨_, _, _, size', hmem, hlong'⟩ => hlong (Option.some.inj hmem ▸ hlong')]
          refine .inl ⟨rfl, ?_⟩
          simp only [if_neg hlong]

/-- **All that a step can do**: nothing to the files, or one is rotated. -/
theorem step_cases (w : WriteRunInfo) (l : LogCall) :
    (w.rotates l = none ∧ Same w (w.step l)) ∨
      ∃ n, w.rotates l = some n ∧ n < maxLogType ∧ w.step l = w.rotate n := by
  cases l with
  | logWrite formatted nLogType io =>
    rcases logTo_cases w nLogType io _ with ⟨hnone, hw⟩ | h
    · refine .inl ⟨hnone, ?_⟩
      rw [step, logWrite, hw]
      exact .refl w
    · exact .inr h
  | logWriteData pData formatted nLogType io =>
    rcases logTo_cases w nLogType io _ with ⟨hnone, hw⟩ | h
    · refine .inl ⟨hnone, ?_⟩
      rw [step, logWriteData, hw]
      exact .refl w
    · exact .inr h
  | setLogFlag n flag => exact .inl ⟨rfl, setLogFlag_same w n flag⟩

end WriteRunInfo

/-! ## The names of the generations

`snprintf` cuts the path to the size of the array. A long name pushes the number out of it, so that
all generations of the file have one path. -/

section NewPath

variable {f g : Str} {a b : Nat}

theorem pad2_mod (n : Nat) : pad2 (n % 10) = ['0', Nat.digitChar (n % 10)] :=
  if_pos (Nat.mod_lt n (by decide))

theorem digitChar_inj : ∀ a < 10, ∀ b < 10, Nat.digitChar a = Nat.digitChar b → a = b := by
  decide

/-- A name with room for a number and the number are both in the path, and can be read off it. -/
theorem newPath_inj (hf : f.length ≤ 1020) (hg : g.length ≤ 1020)
    (h : newPath f (a % 10) = newPath g (b % 10)) : f = g ∧ a % 10 = b % 10 := by
  have hwhole (f : Str) (hf : f.length ≤ 1020) (n : Nat) :
      newPath f (n % 10) = f ++ ['_', '0', Nat.digitChar (n % 10)] := by
    rw [newPath, pad2_mod]
    refine List.take_of_length_le ?_
    simp only [List.length_append, List.length_cons, List.length_nil]
    omega
  rw [hwhole f hf, hwhole g hg] at h
  obtain ⟨hname, hdigits⟩ := List.append_inj' h rfl
  have hdigit : Nat.digitChar (a % 10) = Nat.digitChar (b % 10) := by simpa using hdigits
  exact ⟨hname, digitChar_inj _ (Nat.mod_lt a (by decide)) _ (Nat.mod_lt b (by decide)) hdigit⟩

/-- Of a longer name the number is cut off, at least its last digit, so that the paths of any two of
    its generations are the same. -/
theorem newPath_cut (hf : 1020 < f.length) (a b : Nat) :
    newPath f (a % 10) = newPath f (b % 10) := by
  have hcut (n : Nat) : newPath f (n % 10) = (f ++ ['_', '0']).take 1023 := by
    have hsplit : f ++ '_' :: ['0', Nat.digitChar (n % 10)] =
        (f ++ ['_', '0']) ++ [Nat.digitChar (n % 10)] := by simp
    rw [newPath, pad2_mod, hsplit]
    refine List.take_append_of_le_length ?_
    simp only [List.length_append, List.length_cons, List.length_nil]
    omega
  rw [hcut a, hcut b]

end NewPath

/-! ## Generations

The list of renames, the last one first, is all that the property needs. -/

/-- How often a file has been rotated. -/
def ofFile (f : Str) (rs : List Rotation) : Nat := rs.countP fun r => r.file = f

/-- How often a type has rotated its file. -/
def ofType (n : Nat) (rs : List Rotation) : Nat := rs.countP fun r => r.nLogType = n

/-- **The last ten generations are kept**: where a rotation renames onto the path of an earlier one,
    it is at least the tenth rotation of that file since. -/
def Kept : List Rotation → Prop
  | [] => True
  | r :: rs =>
    (∀ front old back, rs = front ++ old :: back → old.newPath = r.newPath →
      10 ≤ ofFile old.file (r :: front)) ∧ Kept rs

/-- The `k`-th rotation of a file takes the number `k % 10`. -/
def Ordered : List Rotation → Prop
  | [] => True
  | r :: rs => r.newPath = newPath r.file ((ofFile r.file rs + 1) % 10) ∧ Ordered rs

theorem Kept.of_append {front rs : List Rotation} (h : Kept (front ++ rs)) : Kept rs := by
  induction front with
  | nil => exact h
  | cons r front ih => exact ih h.2

theorem Ordered.at_split {front back : List Rotation} {r : Rotation}
    (h : Ordered (front ++ r :: back)) :
    r.newPath = newPath r.file ((ofFile r.file back + 1) % 10) := by
  induction front with
  | nil => exact h.1
  | cons r' front ih => exact ih h.2

theorem ofFile_cons (f : Str) (r : Rotation) (rs : List Rotation) :
    ofFile f (r :: rs) = ofFile f rs + if r.file = f then 1 else 0 := by
  rw [ofFile, ofFile, List.countP_cons]
  simp

theorem ofType_cons (n : Nat) (r : Rotation) (rs : List Rotation) :
    ofType n (r :: rs) = ofType n rs + if r.nLogType = n then 1 else 0 := by
  rw [ofType, ofType, List.countP_cons]
  simp

theorem ofFile_append (f : Str) (rs rs' : List Rotation) :
    ofFile f (rs ++ rs') = ofFile f rs + ofFile f rs' := List.countP_append

/-- **The latest rotation with a number** is one of the last ten of its file. -/
theorem Ordered.recent {rs : List Rotation} (h : Ordered rs) {f : Str} {i : Nat} (hi : 0 < i)
    (hk : i ≤ ofFile f rs) :
    ∃ front r back, rs = front ++ r :: back ∧ r.file = f ∧ r.newPath = newPath f (i % 10) ∧
      ofFile f front < 10 ∧ (i + ofFile f front) % 10 = ofFile f rs % 10 := by
  obtain ⟨j, hij, hjk, hmod, hnear⟩ := Turns.exists_recent (n := 10) (by decide) hk
  have hcount : j - 1 < rs.countP fun r => r.file = f := by
    rw [ofFile] at hjk
    omega
  obtain ⟨front, r, back, rfl, hr, hback⟩ := Turns.exists_nth hcount
  have hfile : r.file = f := of_decide_eq_true hr
  have hpath := h.at_split
  rw [hfile, ofFile, hback, Nat.sub_add_cancel (by omega), hmod] at hpath
  rw [ofFile_append, ofFile_cons, if_pos hfile, ofFile, ofFile, hback] at hnear
  refine ⟨front, r, back, rfl, hfile, hpath, ?_, ?_⟩
  · rw [ofFile]
    omega
  · rw [ofFile_append, ofFile_cons, if_pos hfile, ofFile, ofFile, hback]
    omega

/-! ## Taking turns

What a run in turn keeps says of each type what its count is, and of the list that the files were
rotated in the order of their numbers. -/

namespace WriteRunInfo

/-- It is the turn of the number that the type takes: the type has as many rotations on its count as
    its file has had; and no rotation used the path but one of this file, with a name of at most
    1020 characters. -/
def InTurnAt (w : WriteRunInfo) (n : Nat) : Prop :=
  (w.logType n).nFileNum = ofFile (w.file n) w.rotations % 10 ∧
    ∀ old ∈ w.rotations, old.newPath = (w.rotation n).newPath →
      old.file = w.file n ∧ (w.file n).length ≤ 1020

/-- The condition on a step: a call that rotates a file does so in turn. -/
def InTurn (w : WriteRunInfo) (l : LogCall) : Prop := ∀ n, w.rotates l = some n → w.InTurnAt n

/-- What a run in turn keeps of the counts and the list of renames. -/
structure Turning (w : WriteRunInfo) : Prop where
  nFileNum : ∀ n < maxLogType, (w.logType n).nFileNum = ofType n w.rotations % 10
  file : ∀ r ∈ w.rotations, r.nLogType < maxLogType ∧ r.file = w.file r.nLogType
  ordered : Ordered w.rotations
  kept : Kept w.rotations

theorem new_turning (sFileName : Str) : (new sFileName).Turning := by
  refine ⟨fun n _ => ?_, fun r hr => (nomatch hr), trivial, trivial⟩
  rw [logType, new]
  simp only [cLogTypeArray]
  split
  all_goals rfl

section Turning

variable {w : WriteRunInfo}

/-- The rotations of a type are rotations of its file. -/
theorem Turning.ofType_le (h : w.Turning) (n : Nat) :
    ofType n w.rotations ≤ ofFile (w.file n) w.rotations := by
  refine List.countP_mono_left fun r hr hn => ?_
  rw [(h.file r hr).2, of_decide_eq_true hn]
  exact decide_eq_true rfl

/-- A step that is in turn keeps the last ten generations. -/
theorem Turning.kept_rotate (h : w.Turning) {n : Nat} (hturn : w.InTurnAt n) :
    Kept (w.rotation n :: w.rotations) := by
  obtain ⟨hcount, hpaths⟩ := hturn
  refine ⟨fun front old back hsplit hpath => ?_, h.kept⟩
  obtain ⟨hfile, hshort⟩ := hpaths old (by rw [hsplit]; simp) hpath
  have hnum := (hsplit ▸ h.ordered).at_split
  rw [hfile, hpath] at hnum
  -- the name is not cut, so the numbers are the same
  have hsame : w.nextNum n = (ofFile (w.file n) back + 1) % 10 :=
    (newPath_inj hshort hshort hnum).2
  rw [nextNum, hcount, hsplit, ofFile_append, ofFile_cons, if_pos hfile] at hsame
  rw [hfile, ofFile_cons, if_pos (show (w.rotation n).file = w.file n from rfl)]
  refine Turns.le_of_same_place (a := ofFile (w.file n) back + 1) ?_ (Nat.succ_pos _)
  omega

/-- A path that was used can be used again, if that keeps the generations, only for the file it was
    used for, and ten rotations later. -/
theorem Turning.ten_later (h : w.Turning) {n : Nat}
    (hkept : Kept (w.rotation n :: w.rotations)) {f : Str} {i : Nat} (hi : 0 < i)
    (hk : i ≤ ofFile f w.rotations)
    (hpath : newPath f (i % 10) = newPath (w.file n) (w.nextNum n)) :
    w.file n = f ∧ (i + 9) % 10 = ofFile f w.rotations % 10 := by
  obtain ⟨front, r, back, hsplit, hfile, hnew, hnear, hmod⟩ := h.ordered.recent hi hk
  have hten := hkept.1 front r back hsplit (hnew.trans hpath)
  rw [hfile, ofFile_cons] at hten
  split at hten
  · rename_i hsame
    exact ⟨hsame, by omega⟩
  · omega

/-- **A step that keeps them is in turn.** -/
theorem Turning.inTurn_of_kept (h : w.Turning) {n : Nat} (hn : n < maxLogType)
    (hkept : Kept (w.rotation n :: w.rotations)) : w.InTurnAt n := by
  have hcount := h.nFileNum n hn
  have hle := h.ofType_le n
  refine ⟨?_, fun old hold hpath => ?_⟩
  · by_contra hne
    -- the number of the next rotation was taken, and less than ten rotations ago
    have hlt : ofType n w.rotations + 1 ≤ ofFile (w.file n) w.rotations := by omega
    have hnext : (ofType n w.rotations + 1) % 10 = w.nextNum n := by
      rw [nextNum, hcount, Nat.mod_add_mod]
    obtain ⟨-, hmod⟩ := h.ten_later hkept (Nat.succ_pos _) hlt (by rw [hnext])
    omega
  · obtain ⟨front, back, hsplit⟩ := List.append_of_mem hold
    have hnum := (hsplit ▸ h.ordered).at_split
    have hindex : ofFile old.file back + 1 ≤ ofFile old.file w.rotations := by
      rw [hsplit, ofFile_append, ofFile_cons, if_pos rfl]
      omega
    obtain ⟨hfile, -⟩ := h.ten_later hkept (Nat.succ_pos _) hindex (hnum.symm.trans hpath)
    refine ⟨hfile.symm, ?_⟩
    by_contra hlong
    -- all rotations of the file have the same path, and so has the last one
    rw [← hfile] at hindex
    have hpos : 0 < ofFile (w.file n) w.rotations := by omega
    have hcut := newPath_cut (Nat.lt_of_not_le hlong) (ofFile (w.file n) w.rotations)
      ((w.logType n).nFileNum + 1)
    obtain ⟨-, hmod⟩ := h.ten_later hkept hpos (Nat.le_refl _) hcut
    omega

theorem Turning.rotate (h : w.Turning) {n : Nat} (hn : n < maxLogType) (hturn : w.InTurnAt n) :
    (w.rotate n).Turning := by
  have hrotations : (w.rotate n).rotations = w.rotation n :: w.rotations := rfl
  refine ⟨fun m hm => ?_, fun r hr => ?_, ?_, ?_⟩
  · rw [nFileNum_rotate hn hm, hrotations, ofType_cons, rotation]
    by_cases hmn : m = n
    · rw [if_pos hmn, if_pos hmn.symm, nextNum, h.nFileNum n hn, hmn, Nat.mod_add_mod]
    · rw [if_neg hmn, if_neg (Ne.symm hmn), h.nFileNum m hm, Nat.add_zero]
  · rw [file_rotate]
    rcases List.mem_cons.mp hr with rfl | hr
    · exact ⟨hn, rfl⟩
    · exact h.file r hr
  · refine ⟨?_, h.ordered⟩
    have hnum : w.nextNum n = (ofFile (w.file n) w.rotations + 1) % 10 := by
      rw [nextNum, hturn.1, Nat.mod_add_mod]
    rw [rotation, hnum]
  · exact h.kept_rotate hturn

theorem Turning.same {w' : WriteRunInfo} (h : w.Turning) (hs : Same w w') : w'.Turning := by
  refine ⟨fun n hn => ?_, fun r hr => ?_, ?_, ?_⟩
  · rw [hs.nFileNum, hs.rotations]
    exact h.nFileNum n hn
  · rw [hs.rotations] at hr
    rw [hs.file]
    exact h.file r hr
  · rw [hs.rotations]
    exact h.ordered
  · rw [hs.rotations]
    exact h.kept

/-- **A step in turn** keeps what a run in turn keeps. -/
theorem Turning.step (h : w.Turning) {l : LogCall} (hturn : w.InTurn l) : (w.step l).Turning := by
  rcases step_cases w l with ⟨-, hs⟩ | ⟨n, hl, hn, hs⟩
  · exact h.same hs
  · rw [hs]
    exact h.rotate hn (hturn n hl)

/-- A step that keeps the generations is in turn. -/
theorem Turning.inTurn (h : w.Turning) {l : LogCall} (hkept : Kept (w.step l).rotations) :
    w.InTurn l := by
  intro n hl
  rcases step_cases w l with ⟨hnone, -⟩ | ⟨m, hm, hlt, hs⟩
  · rw [hnone] at hl
    cases hl
  · rw [hm] at hl
    obtain rfl := Option.some.inj hl
    rw [hs] at hkept
    exact h.inTurn_of_kept hlt hkept

end Turning

/-! ## Runs

A rotation is never taken back, so that a run that keeps the generations to its end kept them at
each of its steps. -/

/-- The calls as steps of a system; each of them can be made in every state. -/
def Step : WriteRunInfo → LogCall → WriteRunInfo → Prop := ofFn fun w l => some (w.step l)

theorem step_rotations (w : WriteRunInfo) (l : LogCall) :
    ∃ new, (w.step l).rotations = new ++ w.rotations := by
  rcases step_cases w l with ⟨-, hs⟩ | ⟨n, -, -, hs⟩
  · exact ⟨[], hs.rotations⟩
  · exact ⟨[w.rotation n], by rw [hs]; rfl⟩

/-- What has been rotated stays on the list. -/
theorem run_rotations {w w' : WriteRunInfo} {ls : List LogCall} (hrun : Steps Step w ls w') :
    ∃ new, w'.rotations = new ++ w.rotations := by
  induction hrun with
  | nil => exact ⟨[], rfl⟩
  | cons head _ ih =>
    obtain rfl := Option.some.inj head
    obtain ⟨new, hnew⟩ := ih
    obtain ⟨new', hnew'⟩ := step_rotations _ _
    exact ⟨new ++ new', by rw [hnew, hnew', List.append_assoc]⟩

theorem run_inTurn {w w' : WriteRunInfo} {ls : List LogCall} (hrun : Steps Step w ls w')
    (h : w.Turning) (hkept : Kept w'.rotations) : Steps (guard InTurn Step) w ls w' := by
  induction hrun with
  | nil => exact .nil _
  | cons head tail ih =>
    obtain ⟨new, hnew⟩ := run_rotations tail
    obtain rfl := Option.some.inj head
    have hturn := h.inTurn (hnew ▸ hkept).of_append
    exact .cons ⟨hturn, rfl⟩ (ih (h.step hturn) hkept)

/-- **When the last ten generations are kept**: in exactly the runs whose steps are all in turn. -/
theorem kept_iff {sFileName : Str} {w : WriteRunInfo} {ls : List LogCall}
    (hrun : Steps Step (new sFileName) ls w) :
    Kept w.rotations ↔ Steps (guard InTurn Step) (new sFileName) ls w := by
  constructor
  · exact run_inTurn hrun (new_turning sFileName)
  · intro hturns
    have hstep (s : WriteRunInfo) (l : LogCall) (t : WriteRunInfo) (hs : s.Turning)
        (hst : guard InTurn Step s l t) : t.Turning := by
      obtain ⟨hturn, rfl⟩ := And.imp_right Option.some.inj hst
      exact hs.step hturn
    exact (hturns.invariant hstep (new_turning sFileName)).kept

/-- A call that finds its file too long. -/
def tooLong (nLogType : Int) : LogCall := .logWrite [] nLogType ⟨some 5000001, true, []⟩

/-- A run of two errors. -/
theorem kept_iff_two_errors :
    Kept ((new "logs/x".toList).step (tooLong 2) |>.step (tooLong 2)).rotations ↔
      Steps (guard InTurn Step) (new "logs/x".toList) [tooLong 2, tooLong 2]
        ((new "logs/x".toList).step (tooLong 2) |>.step (tooLong 2)) :=
  kept_iff (.cons rfl (.single rfl))

/-- **A fatal error, then an error**: both rename `logs/x.error` to `logs/x.error_01`. -/
theorem error_after_fatal :
    ∃ w, Steps Step (new "logs/x".toList) [tooLong 1, tooLong 2] w ∧
      (w.rotations.map fun r => (r.file, r.newPath)) =
        [("logs/x.error".toList, "logs/x.error_01".toList),
          ("logs/x.error".toList, "logs/x.error_01".toList)] ∧
      ¬ Kept w.rotations := by
  have hrun : Steps Step (new "logs/x".toList) [tooLong 1, tooLong 2] _ :=
    .cons rfl (.single rfl)
  refine ⟨_, hrun, by decide, fun h => ?_⟩
  have hten := h.1 [] _ [] rfl (by decide)
  exact absurd hten (by decide)

end WriteRunInfo

end WebsocketTest
