import Mathlib.Data.List.TakeWhile
import MiniOcs.Gnmi.PathGrammar
import MiniOcs.Separated

/-!
# Paths as texts

`protobuf_path` reads the text of a path, `_path_text` of the client writes it, and the client and
the gateway compose such texts from the names that a user gives. The text of an accepted path is
read back as that path, and no name can make the path one of another resource.
-/
namespace MiniOcs.Gnmi.PathParser
open Json (bind_eq_ok)
open Separated

/-! ## Reading and writing -/

def isNameChar (c : Char) : Bool := c.isAlphanum || c == '-'

/-- A letter, and letters, digits and hyphens behind it. -/
def isName (text : String) : Bool :=
  match text.toList with
  | [] => false
  | c :: rest => c.isAlpha && rest.all isNameChar

/-- `_SEGMENT.fullmatch`. No character that ends a part of the expression can stand in that part, so
that it matches in one way only. -/
def parseSegment (segment : String) : Option PathElem :=
  let name := String.ofList (segment.toList.takeWhile isNameChar)
  match segment.toList.dropWhile isNameChar with
  | [] => if isName name then some (plain name) else none
  | '[' :: body =>
      let keyName := String.ofList (body.takeWhile isNameChar)
      match body.dropWhile isNameChar with
      | '=' :: body =>
          let value := String.ofList (body.takeWhile isSafeChar)
          if isName name && isName keyName && isSafeId value && body.dropWhile isSafeChar == [']']
          then some (keyed name keyName value)
          else none
      | _ => none
  | _ => none

/-- `protobuf_path` -/
def protobufPath (path : String) : Except String Path := do
  if path.toList.head? ≠ some '/' ∨ path = "/" then .error "path must be an absolute non-root path"
  else
    let rawSegments := split '/' (String.ofList path.toList.tail)
    if rawSegments.any (· == "") then .error "path contains an empty element"
    else
      let elements ← rawSegments.mapM fun segment =>
        match parseSegment segment with
        | some element => .ok element
        | none => .error ("malformed element " ++ quoted segment)
      .ok { elem := elements }

def parsePathString (path : String) : Except String NativePath := do
  parsePath none (← protobufPath path)

def segmentText (element : PathElem) : String :=
  let items := element.key.entries.mergeSort fun a b => decide (a.1 ≤ b.1)
  element.name ++ String.join (items.map fun item => "[" ++ item.1 ++ "=" ++ item.2 ++ "]")

/-- `_path_text` -/
def pathText (path : Path) : String := "/" ++ join '/' (path.elem.map segmentText)

/-! ## Segments -/

/-- An element that has a text. -/
inductive Segment : PathElem → Prop
  | plain {name : String} : isName name = true → Segment (plain name)
  | keyed {name keyName value : String} : isName name = true → isName keyName = true →
      isSafeId value = true → Segment (keyed name keyName value)

@[simp] theorem segmentText_plain (name : String) : segmentText (plain name) = name := by
  simp [segmentText, plain, Dict.empty]

@[simp] theorem segmentText_keyed (name keyName value : String) :
    segmentText (keyed name keyName value) = name ++ ("[" ++ keyName ++ "=" ++ value ++ "]") := by
  simp [segmentText, keyed]

theorem isNameChar_of_isName {text : String} (h : isName text = true) :
    ∀ c ∈ text.toList, isNameChar c = true := by
  unfold isName at h
  cases htext : text.toList with
  | nil => simp
  | cons first rest =>
      rw [htext] at h
      simp only [Bool.and_eq_true, List.all_eq_true] at h
      refine List.forall_mem_cons.mpr ⟨?_, h.2⟩
      simp [isNameChar, Char.isAlphanum, h.1]

theorem isSafeChar_of_isSafeId {text : String} (h : isSafeId text = true) :
    ∀ c ∈ text.toList, isSafeChar c = true := by
  simp only [isSafeId, Bool.and_eq_true, List.all_eq_true] at h
  exact h.2

/-- The word before a character that cannot be in it. -/
theorem takeWhile_word {p : Char → Bool} {word : List Char} {c : Char} (rest : List Char)
    (hword : ∀ a ∈ word, p a = true) (hc : p c = false) :
    (word ++ c :: rest).takeWhile p = word ∧ (word ++ c :: rest).dropWhile p = c :: rest := by
  rw [List.takeWhile_append_of_pos hword, List.dropWhile_append_of_pos hword]
  simp [hc]

theorem takeWhile_all {p : Char → Bool} {word : List Char} (hword : ∀ a ∈ word, p a = true) :
    word.takeWhile p = word ∧ word.dropWhile p = [] :=
  ⟨List.takeWhile_eq_self_iff.mpr hword, List.dropWhile_eq_nil_iff.mpr hword⟩

theorem parseSegment_sound {segment : String} {element : PathElem}
    (h : parseSegment segment = some element) :
    Segment element ∧ segment = segmentText element := by
  have hsplit := List.takeWhile_append_dropWhile (p := isNameChar) (l := segment.toList)
  unfold parseSegment at h
  dsimp only at h
  split at h
  · rename_i hrest
    split_ifs at h with hname
    cases h
    refine ⟨.plain hname, ?_⟩
    apply String.toList_inj.mp
    rw [hrest, List.append_nil] at hsplit
    rw [segmentText_plain, String.toList_ofList, hsplit]
  · rename_i body hrest
    have hbody := List.takeWhile_append_dropWhile (p := isNameChar) (l := body)
    split at h
    · rename_i tail htail
      have hvalue := List.takeWhile_append_dropWhile (p := isSafeChar) (l := tail)
      split_ifs at h with hall
      cases h
      simp only [Bool.and_eq_true, beq_iff_eq] at hall
      obtain ⟨⟨⟨hname, hkey⟩, hsafe⟩, hend⟩ := hall
      refine ⟨.keyed hname hkey hsafe, ?_⟩
      apply String.toList_inj.mp
      rw [hend] at hvalue
      rw [htail] at hbody
      rw [hrest] at hsplit
      calc segment.toList
          = segment.toList.takeWhile isNameChar ++ '[' :: body := hsplit.symm
        _ = segment.toList.takeWhile isNameChar ++ '[' :: (body.takeWhile isNameChar ++
              '=' :: (tail.takeWhile isSafeChar ++ [']'])) := by rw [hvalue, hbody]
        _ = (segmentText (keyed _ _ _)).toList := by simp
    · cases h
  · cases h

theorem parseSegment_complete {element : PathElem} (h : Segment element) :
    parseSegment (segmentText element) = some element := by
  cases h with
  | plain hname =>
      obtain ⟨htake, hdrop⟩ := takeWhile_all (isNameChar_of_isName hname)
      simp [parseSegment, htake, hdrop, hname]
  | @keyed name keyName value hname hkey hsafe =>
      obtain ⟨htake, hdrop⟩ := takeWhile_word (c := '[')
        (keyName.toList ++ '=' :: (value.toList ++ [']'])) (isNameChar_of_isName hname)
        (by decide)
      obtain ⟨htakeKey, hdropKey⟩ := takeWhile_word (c := '=') (value.toList ++ [']'])
        (isNameChar_of_isName hkey) (by decide)
      obtain ⟨htakeValue, hdropValue⟩ := takeWhile_word (c := ']') []
        (isSafeChar_of_isSafeId hsafe) (by decide)
      simp [parseSegment, htake, hdrop, htakeKey, hdropKey, htakeValue, hdropValue, hname,
        hkey, hsafe]

theorem parseSegment_eq_some {segment : String} {element : PathElem} :
    parseSegment segment = some element ↔ Segment element ∧ segment = segmentText element := by
  constructor
  · exact parseSegment_sound
  · rintro ⟨helement, rfl⟩
    exact parseSegment_complete helement

theorem isNameChar_ne_slash {c : Char} (h : isNameChar c = true) : c ≠ '/' := by
  rintro rfl
  exact absurd h (by decide)

theorem Segment.free {element : PathElem} (h : Segment element) :
    Free '/' (segmentText element) := by
  have hword : ∀ {text}, isName text = true → Free '/' text :=
    fun htext hmem => isNameChar_ne_slash (isNameChar_of_isName htext _ hmem) rfl
  cases h with
  | plain hname =>
      rw [segmentText_plain]
      exact hword hname
  | keyed hname hkey hsafe =>
      have hvalue : Free '/' _ :=
        fun hmem => absurd (isSafeChar_of_isSafeId hsafe _ hmem) (by decide)
      simp only [segmentText_keyed, free_append]
      exact ⟨hword hname, ⟨⟨⟨by decide, hword hkey⟩, by decide⟩, hvalue⟩, by decide⟩

theorem Segment.text_ne {element : PathElem} (h : Segment element) : segmentText element ≠ "" := by
  have hempty : ∀ {text}, isName text = true → text ≠ "" := by
    rintro text htext rfl
    cases htext
  cases h with
  | plain hname =>
      rw [segmentText_plain]
      exact hempty hname
  | keyed hname _ _ =>
      intro heq
      rw [segmentText_keyed, String.append_eq_empty_iff] at heq
      exact hempty hname heq.1

/-! ## Paths -/

theorem mapM_parseSegment {segments : List String} {elements : List PathElem} :
    (segments.mapM fun segment => match parseSegment segment with
      | some element => .ok element
      | none => .error ("malformed element " ++ quoted segment)) = Except.ok elements ↔
    (∀ element ∈ elements, Segment element) ∧ segments = elements.map segmentText := by
  induction segments generalizing elements with
  | nil =>
      simp only [List.mapM_nil, pure, Except.pure, Except.ok.injEq]
      constructor
      · rintro rfl
        simp
      · rintro ⟨-, h⟩
        exact (List.map_eq_nil_iff.mp h.symm).symm
  | cons segment rest ih =>
      rw [List.mapM_cons, bind_eq_ok]
      constructor
      · rintro ⟨element, hsegment, hrest⟩
        obtain ⟨others, hothers, hpure⟩ := bind_eq_ok.mp hrest
        cases hpure
        obtain ⟨hall, rfl⟩ := ih.mp hothers
        split at hsegment
        · rename_i parsed hparsed
          cases hsegment
          obtain ⟨helement, rfl⟩ := parseSegment_sound hparsed
          exact ⟨List.forall_mem_cons.mpr ⟨helement, hall⟩, rfl⟩
        · cases hsegment
      · rintro ⟨hall, hsegments⟩
        cases elements with
        | nil => cases hsegments
        | cons element others =>
            obtain ⟨helement, hothers⟩ := List.forall_mem_cons.mp hall
            rw [List.map_cons, List.cons.injEq] at hsegments
            obtain ⟨rfl, rfl⟩ := hsegments
            refine ⟨element, ?_, bind_eq_ok.mpr ⟨others, ih.mpr ⟨hothers, rfl⟩, rfl⟩⟩
            rw [parseSegment_complete helement]

theorem toList_pathText (path : Path) :
    (pathText path).toList = '/' :: (join '/' (path.elem.map segmentText)).toList := by
  simp [pathText]

theorem protobufPath_sound {text : String} {path : Path} (h : protobufPath text = .ok path) :
    ∃ elements ≠ [], (∀ element ∈ elements, Segment element) ∧
      path = { elem := elements } ∧ text = pathText path := by
  unfold protobufPath at h
  by_cases habsolute : text.toList.head? ≠ some '/' ∨ text = "/"
  · rw [if_pos habsolute] at h
    cases h
  rw [if_neg habsolute] at h
  dsimp only at h
  split at h
  · cases h
  rw [not_or, not_not] at habsolute
  obtain ⟨elements, hmap, hpath⟩ := bind_eq_ok.mp h
  cases hpath
  obtain ⟨hall, hsegments⟩ := mapM_parseSegment.mp hmap
  refine ⟨elements, ?_, hall, rfl, ?_⟩
  · rintro rfl
    simp [split, List.splitOn_ne_nil] at hsegments
  · have hjoin : join '/' (split '/' (String.ofList text.toList.tail)) =
        String.ofList text.toList.tail := join_split _
    rw [hsegments] at hjoin
    apply String.toList_inj.mp
    rw [toList_pathText, hjoin, String.toList_ofList]
    exact (List.cons_head?_tail (by simpa using habsolute.1)).symm

theorem protobufPath_pathText {elements : List PathElem} (hne : elements ≠ [])
    (hall : ∀ element ∈ elements, Segment element) :
    protobufPath (pathText { elem := elements }) = .ok { elem := elements } := by
  have hfree : ∀ segment ∈ elements.map segmentText, Free '/' segment := by
    rw [List.forall_mem_map]
    exact fun element helement => (hall element helement).free
  have hsplit : split '/' (String.ofList (pathText { elem := elements }).toList.tail) =
      elements.map segmentText := by
    rw [toList_pathText, List.tail_cons, String.ofList_toList]
    exact split_join (by simpa using hne) hfree
  unfold protobufPath
  rw [if_neg, hsplit, if_neg]
  · exact bind_eq_ok.mpr ⟨elements, mapM_parseSegment.mpr ⟨hall, rfl⟩, rfl⟩
  · simp only [List.any_eq_true, List.mem_map, beq_iff_eq, not_exists, not_and]
    rintro segment ⟨element, helement, rfl⟩
    exact (hall element helement).text_ne
  · rw [not_or, not_not, toList_pathText]
    refine ⟨rfl, fun heq => ?_⟩
    obtain ⟨element, rest, rfl⟩ := List.exists_cons_of_ne_nil hne
    have hlist := congrArg String.toList heq
    rw [toList_pathText] at hlist
    have hnil : (join '/' ((element :: rest).map segmentText)).toList = [] := by simpa using hlist
    have hjoin : split '/' (join '/' ((element :: rest).map segmentText)) =
        (element :: rest).map segmentText := split_join (by simp) hfree
    rw [String.toList_eq_nil_iff.mp hnil] at hjoin
    have hfirst := List.head_eq_of_cons_eq hjoin
    exact (hall element List.mem_cons_self).text_ne hfirst.symm

/-- The texts that are accepted are those of paths with elements only, each path from its own. -/
theorem protobufPath_eq_ok {text : String} {path : Path} :
    protobufPath text = .ok path ↔ ∃ elements ≠ [], (∀ element ∈ elements, Segment element) ∧
      path = { elem := elements } ∧ text = pathText path := by
  constructor
  · exact protobufPath_sound
  · rintro ⟨elements, hne, hall, rfl, rfl⟩
    exact protobufPath_pathText hne hall

/-! ## Native paths -/

theorem BranchShape.segments {base native : NativePath} {elements : List PathElem}
    (h : BranchShape base elements native) : ∀ element ∈ elements, Segment element := by
  have hplain : ∀ {name}, isName name = true → Segment (plain name) := Segment.plain
  have hkeyed : ∀ {name id}, isName name = true → isSafeId id = true →
      Segment (keyed name "id" id) := fun hname hid => .keyed hname (by decide) hid
  have hside : ∀ side : Side, isName side.name = true := by
    intro side
    cases side <;> decide
  cases h with
  | port side htext =>
      simp only [List.forall_mem_cons]
      exact ⟨hplain (by decide), hkeyed (hside side) htext.safe, by simp⟩
  | portState side htext =>
      simp only [List.forall_mem_cons]
      exact ⟨hplain (by decide), hkeyed (hside side) htext.safe, hplain (by decide), by simp⟩
  | connection hid | alarm hid | fault hid =>
      simp only [List.forall_mem_cons]
      exact ⟨hplain (by decide), hkeyed (by decide) hid, by simp⟩
  | connectionConfig hid | connectionState hid | faultConfig hid =>
      simp only [List.forall_mem_cons]
      exact ⟨hplain (by decide), hkeyed (by decide) hid, hplain (by decide), by simp⟩
  | device => simp
  | _ =>
      simp only [List.forall_mem_cons]
      exact ⟨hplain (by decide), by simp⟩

theorem Shape.segments {origin target : String} {elements : List PathElem} {native : NativePath}
    (h : Shape origin target elements native) :
    elements ≠ [] ∧ ∀ element ∈ elements, Segment element := by
  have hocs : Segment (plain "ocs") := .plain (by decide)
  have hdevices : Segment (plain "devices") := .plain (by decide)
  cases h with
  | root => simpa using hocs
  | devices => simpa using ⟨hocs, hdevices⟩
  | below hdevice _ hbranch =>
      simp only [List.forall_mem_cons]
      exact ⟨by simp, hocs, hdevices, .keyed (by decide) (by decide) hdevice, hbranch.segments⟩

theorem parsePath_elements {elements : List PathElem} {native : NativePath} :
    parsePath none { elem := elements } = .ok native ↔ Shape "" "" elements native := by
  rw [parsePath_eq_ok]
  have hjoined : joined none { elem := elements } = elements := rfl
  rw [hjoined]
  exact ⟨fun h => h.2, fun h => ⟨⟨rfl, rfl, .inl rfl, .inl rfl, .inl rfl, .inl rfl⟩, h⟩⟩

/-- The texts of the native schema. -/
theorem parsePathString_eq_ok {text : String} {native : NativePath} :
    parsePathString text = .ok native ↔
      ∃ elements, Shape "" "" elements native ∧ text = pathText { elem := elements } := by
  unfold parsePathString
  rw [bind_eq_ok]
  constructor
  · rintro ⟨path, hpath, hnative⟩
    obtain ⟨elements, -, -, rfl, rfl⟩ := protobufPath_sound hpath
    exact ⟨elements, parsePath_elements.mp hnative, rfl⟩
  · rintro ⟨elements, hshape, rfl⟩
    obtain ⟨hne, hall⟩ := hshape.segments
    exact ⟨{ elem := elements }, protobufPath_pathText hne hall,
      parsePath_elements.mpr hshape⟩

/-- A path as its elements alone say it. -/
def NativePath.local (native : NativePath) : NativePath := { native with origin := "", target := "" }

theorem BranchShape.local {base native : NativePath} {elements : List PathElem}
    (h : BranchShape base elements native) : BranchShape base.local elements native.local := by
  cases h with
  | port side htext => exact .port side htext
  | portState side htext => exact .portState side htext
  | connection hid => exact .connection hid
  | connectionConfig hid => exact .connectionConfig hid
  | connectionState hid => exact .connectionState hid
  | alarm hid => exact .alarm hid
  | fault hid => exact .fault hid
  | faultConfig hid => exact .faultConfig hid
  | _ => constructor

theorem Shape.local {origin target : String} {elements : List PathElem} {native : NativePath}
    (h : Shape origin target elements native) : Shape "" "" elements native.local := by
  cases h with
  | root => exact .root
  | devices => exact .devices
  | below hdevice _ hbranch => exact .below hdevice (.inl rfl) hbranch.local

/-- What the client prints for a path that the server accepted is read as the same resource. -/
theorem parsePathString_pathText {pre : Option Path} {path : Path} {native : NativePath}
    (h : parsePath pre path = .ok native) :
    parsePathString (pathText { elem := joined pre path }) = .ok native.local :=
  parsePathString_eq_ok.mpr ⟨_, (parsePath_eq_ok.mp h).2.local, rfl⟩

def portPrefix : Path where
  elem := [plain "ocs", plain "devices"]
  origin := nativeOrigin

def portPath : Path where
  elem := [keyed "device" "name" "ocs0", plain "ports", keyed "input-port" "id" "007"]

/-- A port that was asked for with a leading zero and a prefix is printed in full. -/
theorem parsePathString_pathText_port :
    parsePathString "/ocs/devices/device[name=ocs0]/ports/input-port[id=007]" =
      .ok { kind := .inputPort, device := some "ocs0", portId := some 7 } := by
  have htext : pathText { elem := joined (some portPrefix) portPath } =
      "/ocs/devices/device[name=ocs0]/ports/input-port[id=007]" := by decide +kernel
  have hparse : parsePath (some portPrefix) portPath = .ok
      { kind := .inputPort, device := some "ocs0", portId := some 7, origin := nativeOrigin } := by
    decide
  rw [← htext]
  exact parsePathString_pathText hparse

/-! ## Composed paths -/

/-- An optional last element, as the composed paths have it. -/
def leafSuffix (leaf : String) : String := if leaf = "" then "" else "/" ++ leaf

theorem leafSuffix_inj {a b : String} (h : leafSuffix a = leafSuffix b) : a = b := by
  unfold leafSuffix at h
  split_ifs at h with ha hb hb
  · rw [ha, hb]
  · simp at h
  · simp at h
  · exact (String.append_right_inj "/").mp h

theorem leaf_none {leaf : String} (h : leafSuffix leaf = "") : leaf = "" := leafSuffix_inj h

theorem leaf_config {leaf : String} (h : leafSuffix leaf = "/config") : leaf = "config" :=
  leafSuffix_inj (h.trans (by decide))

theorem leaf_state {leaf : String} (h : leafSuffix leaf = "/state") : leaf = "state" :=
  leafSuffix_inj (h.trans (by decide))

/-- Texts that begin differently. -/
def Clash (a b : String) : Prop := (a.toList.zip b.toList).any (fun pair => pair.1 != pair.2) = true

instance (a b : String) : Decidable (Clash a b) := inferInstanceAs (Decidable (_ = true))

theorem Clash.append_ne {a b : String} (h : Clash a b) (x y : String) : a ++ x ≠ b ++ y := by
  intro heq
  have hlists := congrArg String.toList heq
  rw [String.toList_append, String.toList_append] at hlists
  unfold Clash at h
  generalize a.toList = as at h hlists
  generalize b.toList = bs at h hlists
  induction as generalizing bs with
  | nil => cases h
  | cons c as ih =>
      cases bs with
      | nil => cases h
      | cons d bs =>
          rw [List.cons_append, List.cons_append, List.cons.injEq] at hlists
          rw [List.zip_cons_cons, List.any_cons, Bool.or_eq_true] at h
          rcases h with hne | hrest
          · simp [hlists.1] at hne
          · exact ih bs hrest hlists.2

/-- `connection_path` of the client -/
def connectionPath (device connectionId leaf : String) : String :=
  "/ocs/devices/device[name=" ++ device ++ "]/connections/connection[id=" ++ connectionId ++ "]" ++
    leafSuffix leaf

/-- `fault_path` of the client -/
def faultPath (device faultId leaf : String) : String :=
  "/ocs/devices/device[name=" ++ device ++ "]/faults" ++
    (if faultId = "" then "" else "/fault[id=" ++ faultId ++ "]") ++ leafSuffix leaf

/-- `device_path` of the gateway -/
def gatewayPath (device branch : String) : String :=
  "/ocs/devices/device[name=" ++ device ++ "]" ++ leafSuffix branch

/-- The parts of a text of elements that its closing brackets end, and the rest. -/
def closings (text : String) : List PathElem → List String
  | [] => [text]
  | element :: rest =>
      match element.key.entries with
      | [(keyName, value)] =>
          (text ++ "/" ++ element.name ++ "[" ++ keyName ++ "=" ++ value) :: closings "" rest
      | _ => closings (text ++ "/" ++ element.name) rest

@[simp] theorem closings_nil (text : String) : closings text [] = [text] := rfl

@[simp] theorem closings_plain (text name : String) (rest : List PathElem) :
    closings text (plain name :: rest) = closings (text ++ "/" ++ name) rest := rfl

@[simp] theorem closings_keyed (text name keyName value : String) (rest : List PathElem) :
    closings text (keyed name keyName value :: rest) =
      (text ++ "/" ++ name ++ "[" ++ keyName ++ "=" ++ value) :: closings "" rest := rfl

theorem closings_ne_nil (text : String) (elements : List PathElem) : closings text elements ≠ [] := by
  induction elements generalizing text with
  | nil => simp
  | cons element rest ih =>
      unfold closings
      split
      · simp
      · exact ih _

theorem join_closings {elements : List PathElem} (h : ∀ element ∈ elements, Segment element)
    (text : String) : join ']' (closings text elements) =
      text ++ String.join (elements.map fun element => "/" ++ segmentText element) := by
  induction elements generalizing text with
  | nil => simp
  | cons element rest ih =>
      obtain ⟨helement, hrest⟩ := List.forall_mem_cons.mp h
      cases helement with
      | plain hname =>
          rw [closings_plain, ih hrest]
          apply String.toList_inj.mp
          simp
      | keyed hname hkey hsafe =>
          rw [closings_keyed, ← List.singleton_append, join_append (by simp)
            (closings_ne_nil _ _), join_singleton, ih hrest]
          apply String.toList_inj.mp
          simp

theorem pathText_closings {elements : List PathElem} (hne : elements ≠ [])
    (h : ∀ element ∈ elements, Segment element) :
    pathText { elem := elements } = join ']' (closings "" elements) := by
  rw [join_closings h, pathText]
  clear h
  induction elements with
  | nil => exact absurd rfl hne
  | cons element rest ih =>
      cases rest with
      | nil => simp
      | cons next rest =>
          have htail := ih (by simp)
          apply String.toList_inj.mp
          have hlist := congrArg String.toList htail
          simp only [List.map_cons] at hlist ⊢
          rw [← List.singleton_append, join_append (by simp) (by simp), join_singleton]
          simp at hlist ⊢
          exact hlist

theorem free_closings {elements : List PathElem} (h : ∀ element ∈ elements, Segment element)
    {text : String} (htext : Free ']' text) : ∀ field ∈ closings text elements, Free ']' field := by
  have hname : ∀ {name}, isName name = true → Free ']' name :=
    fun hname hmem => absurd (isNameChar_of_isName hname _ hmem) (by decide)
  induction elements generalizing text with
  | nil => simpa using htext
  | cons element rest ih =>
      obtain ⟨helement, hrest⟩ := List.forall_mem_cons.mp h
      cases helement with
      | plain hplain =>
          rw [closings_plain]
          exact ih hrest (by simpa using ⟨⟨htext, by decide⟩, hname hplain⟩)
      | keyed hplain hkey hsafe =>
          have hvalue : Free ']' _ :=
            fun hmem => absurd (isSafeChar_of_isSafeId hsafe _ hmem) (by decide)
          rw [closings_keyed, List.forall_mem_cons]
          refine ⟨?_, ih hrest (by decide)⟩
          simp only [free_append]
          exact ⟨⟨⟨⟨⟨⟨htext, by decide⟩, hname hplain⟩, by decide⟩, hname hkey⟩, by decide⟩, hvalue⟩

/-- The leaf that a path is composed with, and the resource that it is to be. -/
inductive ConnectionLeaf : String → PathKind → Prop
  | connection : ConnectionLeaf "" .connection
  | config : ConnectionLeaf "config" .connectionConfig
  | state : ConnectionLeaf "state" .connectionState

theorem join_three (a b c d e : String) :
    join ']' [a ++ b, c ++ d, e] = a ++ b ++ ("]" ++ c) ++ d ++ "]" ++ e := by
  apply String.toList_inj.mp
  rw [toList_join]
  simp

theorem connectionPath_join (device connectionId leaf : String) :
    connectionPath device connectionId leaf = join ']' ["/ocs/devices/device[name=" ++ device,
      "/connections/connection[id=" ++ connectionId, leafSuffix leaf] := by
  have hbracket : "]" ++ "/connections/connection[id=" = "]/connections/connection[id=" := by simp
  rw [join_three, hbracket]
  rfl

theorem length_closings {origin target : String} {elements : List PathElem} {native : NativePath}
    (h : Shape origin target elements native) : (closings "" elements).length ≤ 3 := by
  cases h with
  | root => simp
  | devices => simp
  | below _ _ hbranch => cases hbranch <;> simp

/-- No name of a device or of a connection makes the path one of another resource. -/
theorem connectionPath_eq_ok {device connectionId leaf : String} {native : NativePath} :
    parsePathString (connectionPath device connectionId leaf) = .ok native ↔
      isSafeId device = true ∧ isSafeId connectionId = true ∧ ∃ kind, ConnectionLeaf leaf kind ∧
        native = { kind, device := some device, connectionId := some connectionId } := by
  rw [parsePathString_eq_ok]
  constructor
  · rintro ⟨elements, hshape, htext⟩
    obtain ⟨hne, hall⟩ := hshape.segments
    rw [connectionPath_join, pathText_closings hne hall] at htext
    have hfields := join_inj_of_length_le (by simp) (closings_ne_nil "" elements)
      (free_closings hall (by decide)) (by simpa using length_closings hshape) htext
    clear htext hall hne
    cases hshape with
    | root => simp at hfields
    | devices => simp at hfields
    | below hdevice _ hbranch =>
        cases hbranch with
        | connection hid =>
            simp at hfields
            obtain ⟨rfl, rfl, hleaf⟩ := hfields
            obtain rfl := leaf_none hleaf
            exact ⟨hdevice, hid, _, .connection, rfl⟩
        | connectionConfig hid =>
            simp at hfields
            obtain ⟨rfl, rfl, hleaf⟩ := hfields
            obtain rfl := leaf_config hleaf
            exact ⟨hdevice, hid, _, .config, rfl⟩
        | connectionState hid =>
            simp at hfields
            obtain ⟨rfl, rfl, hleaf⟩ := hfields
            obtain rfl := leaf_state hleaf
            exact ⟨hdevice, hid, _, .state, rfl⟩
        | port side hid | portState side hid =>
            cases side
            all_goals
              simp [Side.name] at hfields
              exact absurd hfields.2.1 (Clash.append_ne (by decide) _ _)
        | alarm hid | fault hid | faultConfig hid =>
            simp at hfields
            exact absurd hfields.2.1 (Clash.append_ne (by decide) _ _)
        | _ => simp at hfields
  · rintro ⟨hdevice, hid, kind, hleaf, rfl⟩
    have hshape : ∃ elements, Shape "" "" elements
        { kind, device := some device, connectionId := some connectionId } ∧
        closings "" elements = ["/ocs/devices/device[name=" ++ device,
          "/connections/connection[id=" ++ connectionId, leafSuffix leaf] := by
      cases hleaf with
      | connection => exact ⟨_, .below hdevice (.inl rfl) (.connection hid), by simp [leafSuffix]⟩
      | config => exact ⟨_, .below hdevice (.inl rfl) (.connectionConfig hid), by simp [leafSuffix]⟩
      | state => exact ⟨_, .below hdevice (.inl rfl) (.connectionState hid), by simp [leafSuffix]⟩
    obtain ⟨elements, hshape, hclosings⟩ := hshape
    obtain ⟨hne, hall⟩ := hshape.segments
    exact ⟨elements, hshape, by rw [connectionPath_join, pathText_closings hne hall, hclosings]⟩

theorem free_leafSuffix {leaf : String} (h : Free ']' leaf) : Free ']' (leafSuffix leaf) := by
  unfold leafSuffix
  split_ifs
  · decide
  · exact free_append.mpr ⟨by decide, h⟩

/-- The branches of a device that hold resources or tell about all of them. -/
inductive Container : String → PathKind → Prop
  | ports : Container "ports" .ports
  | connections : Container "connections" .connections
  | alarms : Container "alarms" .alarms
  | counters : Container "counters" .counters
  | diagnostics : Container "diagnostics" .diagnostics
  | faults : Container "faults" .faults

theorem gatewayPath_join (device branch : String) : gatewayPath device branch =
    join ']' ["/ocs/devices/device[name=" ++ device, leafSuffix branch] := by
  have hjoin : ∀ a b c : String, join ']' [a ++ b, c] = a ++ b ++ "]" ++ c := by
    intro a b c
    apply String.toList_inj.mp
    rw [toList_join]
    simp
  rw [hjoin]
  rfl

/-- What follows the last bracket of a path. -/
theorem last_closing {device rest : String} {elements : List PathElem} {native : NativePath}
    (hrest : Free ']' rest) (hshape : Shape "" "" elements native) {before : List String}
    {last : String} (hlast : closings "" elements = before ++ [last]) (hbefore : before ≠ [])
    (h : join ']' ["/ocs/devices/device[name=" ++ device, rest] = pathText { elem := elements }) :
    rest = last := by
  obtain ⟨hne, hall⟩ := hshape.segments
  rw [pathText_closings hne hall, hlast] at h
  have hfree : ∀ field ∈ closings "" elements, Free ']' field := free_closings hall (by decide)
  have hjoin : join ']' (["/ocs/devices/device[name=" ++ device] ++ [rest]) =
      join ']' (before ++ [last]) := h
  exact last_of_join (by simp) hbefore hrest (hfree last (by rw [hlast]; simp)) hjoin

/-- Behind two keyed elements there is no container. -/
theorem closings_cases {origin target : String} {elements : List PathElem} {native : NativePath}
    (h : Shape origin target elements native) : (closings "" elements).length ≤ 2 ∨
      ∃ before last, before ≠ [] ∧ closings "" elements = before ++ [last] ∧
        last ∈ ["", "/config", "/state"] := by
  cases h with
  | root => exact .inl (by simp)
  | devices => exact .inl (by simp)
  | below _ _ hbranch =>
      cases hbranch with
      | port _ _ | connection _ | alarm _ | fault _ =>
          exact .inr ⟨[_, _], "", by simp, by simp; constructor <;> rfl, by simp⟩
      | portState _ _ | connectionState _ =>
          exact .inr ⟨[_, _], "/state", by simp, by simp; constructor <;> rfl, by simp⟩
      | connectionConfig _ | faultConfig _ =>
          exact .inr ⟨[_, _], "/config", by simp, by simp; constructor <;> rfl, by simp⟩
      | _ => exact .inl (by simp)

theorem gatewayPath_eq_ok {device branch : String} {kind : PathKind} (h : Container branch kind)
    {native : NativePath} : parsePathString (gatewayPath device branch) = .ok native ↔
      isSafeId device = true ∧ native = { kind, device := some device } := by
  have hfree : Free ']' (leafSuffix branch) := by cases h <;> decide
  rw [parsePathString_eq_ok, gatewayPath_join]
  constructor
  · rintro ⟨elements, hshape, htext⟩
    obtain ⟨hne, hall⟩ := hshape.segments
    rcases closings_cases hshape with hlength | ⟨before, last, hbefore, hlast, hmem⟩
    · rw [pathText_closings hne hall] at htext
      have hfields := join_inj_of_length_le (by simp) (closings_ne_nil "" elements)
        (free_closings hall (by decide)) (by simpa using hlength) htext
      clear htext hall hne
      cases hshape with
      | root => simp at hfields
      | devices => simp at hfields
      | below hdevice _ hbranch =>
          cases hbranch with
          | port _ _ | portState _ _ | connection _ | connectionConfig _ | connectionState _
          | alarm _ | fault _ | faultConfig _ => simp at hlength
          | _ =>
              simp at hfields
              obtain ⟨rfl, hleaf⟩ := hfields
              cases h <;> first | exact ⟨hdevice, rfl⟩ | simp [leafSuffix] at hleaf
    · rw [← last_closing hfree hshape hlast hbefore htext] at hmem
      cases h <;> simp [leafSuffix] at hmem
  · rintro ⟨hdevice, rfl⟩
    have hshape : ∃ elements, Shape "" "" elements { kind, device := some device } ∧
        closings "" elements = ["/ocs/devices/device[name=" ++ device, leafSuffix branch] := by
      cases h with
      | ports => exact ⟨_, .below hdevice (.inl rfl) .ports, by simp [leafSuffix]⟩
      | connections => exact ⟨_, .below hdevice (.inl rfl) .connections, by simp [leafSuffix]⟩
      | alarms => exact ⟨_, .below hdevice (.inl rfl) .alarms, by simp [leafSuffix]⟩
      | counters => exact ⟨_, .below hdevice (.inl rfl) .counters, by simp [leafSuffix]⟩
      | diagnostics => exact ⟨_, .below hdevice (.inl rfl) .diagnostics, by simp [leafSuffix]⟩
      | faults => exact ⟨_, .below hdevice (.inl rfl) .faults, by simp [leafSuffix]⟩
    obtain ⟨elements, hshape, hclosings⟩ := hshape
    obtain ⟨hne, hall⟩ := hshape.segments
    exact ⟨elements, hshape, by rw [pathText_closings hne hall, hclosings]⟩

/-- The leaf that the path of a fault is composed with. -/
inductive FaultLeaf : String → PathKind → Prop
  | fault : FaultLeaf "" .fault
  | config : FaultLeaf "config" .faultConfig

theorem FaultLeaf.kind_eq {leaf : String} {kind : PathKind} (h : FaultLeaf leaf kind) :
    kind = if leaf = "" then .fault else .faultConfig := by
  cases h <;> rfl

theorem faultPath_join {faultId : String} (h : faultId ≠ "") (device leaf : String) :
    faultPath device faultId leaf = join ']' ["/ocs/devices/device[name=" ++ device,
      "/faults/fault[id=" ++ faultId, leafSuffix leaf] := by
  have htext : ∀ {a p q pq r : String}, p ++ q = pq → "]" ++ p = r →
      a ++ device ++ r ++ (q ++ faultId ++ "]") ++ leafSuffix leaf =
        join ']' [a ++ device, pq ++ faultId, leafSuffix leaf] := by
    rintro a p q _ _ rfl rfl
    apply String.toList_inj.mp
    rw [toList_join]
    simp
  have hfault : "/faults" ++ "/fault[id=" = "/faults/fault[id=" := by simp
  have hbracket : "]" ++ "/faults" = "]/faults" := by simp
  unfold faultPath
  rw [if_neg h]
  exact htext hfault hbracket

theorem faultPath_some {device faultId leaf : String} (h : faultId ≠ "") {native : NativePath} :
    parsePathString (faultPath device faultId leaf) = .ok native ↔
      isSafeId device = true ∧ isSafeId faultId = true ∧ ∃ kind, FaultLeaf leaf kind ∧
        native = { kind, device := some device, faultId := some faultId } := by
  rw [parsePathString_eq_ok]
  constructor
  · rintro ⟨elements, hshape, htext⟩
    obtain ⟨hne, hall⟩ := hshape.segments
    rw [faultPath_join h, pathText_closings hne hall] at htext
    have hfields := join_inj_of_length_le (by simp) (closings_ne_nil "" elements)
      (free_closings hall (by decide)) (by simpa using length_closings hshape) htext
    clear htext hall hne
    cases hshape with
    | root => simp at hfields
    | devices => simp at hfields
    | below hdevice _ hbranch =>
        cases hbranch with
        | fault hid =>
            simp at hfields
            obtain ⟨rfl, rfl, hleaf⟩ := hfields
            obtain rfl := leaf_none hleaf
            exact ⟨hdevice, hid, _, .fault, rfl⟩
        | faultConfig hid =>
            simp at hfields
            obtain ⟨rfl, rfl, hleaf⟩ := hfields
            obtain rfl := leaf_config hleaf
            exact ⟨hdevice, hid, _, .config, rfl⟩
        | port side hid | portState side hid =>
            cases side
            all_goals
              simp [Side.name] at hfields
              exact absurd hfields.2.1 (Clash.append_ne (by decide) _ _)
        | alarm hid | connection hid | connectionConfig hid | connectionState hid =>
            simp at hfields
            exact absurd hfields.2.1 (Clash.append_ne (by decide) _ _)
        | _ => simp at hfields
  · rintro ⟨hdevice, hid, kind, hleaf, rfl⟩
    have hshape : ∃ elements, Shape "" "" elements
        { kind, device := some device, faultId := some faultId } ∧
        closings "" elements = ["/ocs/devices/device[name=" ++ device,
          "/faults/fault[id=" ++ faultId, leafSuffix leaf] := by
      cases hleaf with
      | fault => exact ⟨_, .below hdevice (.inl rfl) (.fault hid), by simp [leafSuffix]⟩
      | config => exact ⟨_, .below hdevice (.inl rfl) (.faultConfig hid), by simp [leafSuffix]⟩
    obtain ⟨elements, hshape, hclosings⟩ := hshape
    obtain ⟨hne, hall⟩ := hshape.segments
    exact ⟨elements, hshape, by rw [faultPath_join h, pathText_closings hne hall, hclosings]⟩

theorem faultPath_none (device leaf : String) : faultPath device "" leaf =
    join ']' ["/ocs/devices/device[name=" ++ device, "/faults" ++ leafSuffix leaf] := by
  have htext : ∀ {a p r : String}, "]" ++ p = r → a ++ device ++ r ++ "" ++ leafSuffix leaf =
      join ']' [a ++ device, p ++ leafSuffix leaf] := by
    rintro a p _ rfl
    apply String.toList_inj.mp
    rw [toList_join]
    simp
  have hbracket : "]" ++ "/faults" = "]/faults" := by simp
  unfold faultPath
  rw [if_pos rfl]
  exact htext hbracket

theorem faultPath_faults (device : String) :
    faultPath device "" "" = gatewayPath device "faults" := by
  rw [faultPath_none, gatewayPath_join]
  congr 3

/-- A path without the id of a fault has no configuration. -/
theorem faultPath_config (device : String) (native : NativePath) :
    parsePathString (faultPath device "" "config") ≠ .ok native := by
  intro h
  obtain ⟨elements, hshape, heq⟩ := parsePathString_eq_ok.mp h
  obtain ⟨hne, hall⟩ := hshape.segments
  have hfree : Free ']' ("/faults" ++ leafSuffix "config") := by decide
  rw [faultPath_none] at heq
  rcases closings_cases hshape with hlength | ⟨before, last, hbefore, hlast, hmem⟩
  · rw [pathText_closings hne hall] at heq
    have hfields := join_inj_of_length_le (by simp) (closings_ne_nil "" elements)
      (free_closings hall (by decide)) (by simpa using hlength) heq
    clear heq hall hne
    cases hshape with
    | root => simp at hfields
    | devices => simp at hfields
    | below _ _ hbranch => cases hbranch <;> simp [leafSuffix] at hfields
  · rw [← last_closing hfree hshape hlast hbefore heq] at hmem
    simp [leafSuffix] at hmem

/-- A device that is not checked before can lead elsewhere where nothing follows it. -/
example : parsePathString (gatewayPath "ocs0]/connections/connection[id=c1" "") =
    .ok { kind := .connection, device := some "ocs0", connectionId := some "c1" } := by
  decide +kernel

end MiniOcs.Gnmi.PathParser
