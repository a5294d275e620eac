import Mathlib.Data.List.Basic

set_option autoImplicit false

namespace MeshNetwork.TomlLines

inductive Line where
  | comment (text : String)
  | blank
  | text (key value : String)
  | number (key : String) (value : Nat)
  | table (name : String)
  deriving DecidableEq

def Line.render : Line → String
  | .comment s => "#" ++ s
  | .blank => ""
  | .text key value => key ++ " = \"" ++ value ++ "\""
  | .number key value => key ++ " = " ++ toString value
  | .table name => "[[" ++ name ++ "]]"

def printable (c : Char) : Bool := 32 ≤ c.toNat && c.toNat < 127

def bare (c : Char) : Bool := c.isAlphanum || c = '_' || c = '-'

def isBareKey (key : String) : Bool := key ≠ "" && key.toList.all bare

def isPlainText (value : String) : Bool :=
  value.toList.all fun c => printable c && c ≠ '"' && c ≠ '\\'

/-- The line means what it says: keys are bare, nothing needs an escape, and numbers are
within the range of TOML. -/
def Line.isClean : Line → Bool
  | .comment s => s.toList.all printable
  | .blank => true
  | .text key value => isBareKey key && isPlainText value
  | .number key value => isBareKey key && decide (value ≤ 9223372036854775807)
  | .table name => isBareKey name

def renderLines (lines : List Line) : List Char :=
  lines.flatMap fun l => l.render.toList ++ ['\n']

def readField (cs : List Char) : Option Line :=
  match cs.splitOn '"' with
  | [before,value,[]] =>
    match before.splitOn ' ' with
    | [key,['='],[]] => some (.text (String.ofList key) (String.ofList value))
    | _ => none
  | [_] =>
    match cs.splitOn ' ' with
    | [key,['='],digits] =>
      if digits ≠ [] ∧ digits.all Char.isDigit then
        some (.number (String.ofList key) (Nat.ofDigitChars 10 digits 0))
      else none
    | _ => none
  | _ => none

def readLine (cs : List Char) : Option Line :=
  if cs = [] then some .blank
  else if cs.head? = some '#' then some (.comment (String.ofList cs.tail))
  else if cs.take 2 = ['[','['] then
    match (cs.drop 2).splitOn ']' with
    | [name,[],[]] => some (.table (String.ofList name))
    | _ => none
  else readField cs

def readLines (cs : List Char) : Option (List Line) := (cs.splitOn '\n').mapM readLine

theorem bare_ne {c : Char} (h : bare c = true) : c ≠ '\n' ∧ c ≠ '"' ∧ c ≠ ' ' ∧ c ≠ '#' ∧
    c ≠ '[' ∧ c ≠ ']' := by
  refine ⟨?_,?_,?_,?_,?_,?_⟩ <;> rintro rfl <;> simp [bare] at h

theorem bareKey_mem {key : String} (h : isBareKey key = true) {c : Char} (hc : c ∈ key.toList) :
    bare c = true := by
  simp only [isBareKey,Bool.and_eq_true] at h
  exact List.all_eq_true.mp h.2 c hc

theorem bareKey_cons {key : String} (h : isBareKey key = true) :
    ∃ c cs, key.toList = c :: cs ∧ bare c = true := by
  cases hl : key.toList with
  | nil =>
    simp only [isBareKey,Bool.and_eq_true,decide_eq_true_eq] at h
    exact absurd (String.toList_eq_nil_iff.mp hl) h.1
  | cons c cs => exact ⟨c,cs,rfl,bareKey_mem h (by rw [hl]; exact List.mem_cons_self)⟩

theorem digit_ne {n : Nat} {c : Char} (hc : c ∈ Nat.toDigits 10 n) : c ≠ '\n' ∧ c ≠ '"' ∧ c ≠ ' ' := by
  have h : c.isDigit = true := Nat.isDigit_of_mem_toDigits (by omega) (by omega) hc
  refine ⟨?_,?_,?_⟩ <;> rintro rfl <;> simp at h

theorem printable_ne {c : Char} (h : printable c = true) : c ≠ '\n' := by
  rintro rfl
  simp [printable] at h

theorem plainText_mem {value : String} (h : isPlainText value = true) {c : Char}
    (hc : c ∈ value.toList) : printable c = true ∧ c ≠ '"' := by
  have hc' := List.all_eq_true.mp h c hc
  simp only [Bool.and_eq_true,decide_eq_true_eq] at hc'
  exact ⟨hc'.1.1,hc'.1.2⟩

theorem not_mem_key {key : String} (h : isBareKey key = true) :
    '\n' ∉ key.toList ∧ '"' ∉ key.toList ∧ ' ' ∉ key.toList ∧ ']' ∉ key.toList := by
  refine ⟨?_,?_,?_,?_⟩ <;> intro hc
  · exact (bare_ne (bareKey_mem h hc)).1 rfl
  · exact (bare_ne (bareKey_mem h hc)).2.1 rfl
  · exact (bare_ne (bareKey_mem h hc)).2.2.1 rfl
  · exact (bare_ne (bareKey_mem h hc)).2.2.2.2.2 rfl

theorem split_assignment {key : String} (h : isBareKey key = true) {value : List Char}
    (hv : ' ' ∉ value) : (key.toList ++ ' ' :: '=' :: ' ' :: value).splitOn ' ' =
      [key.toList,['='],value] := by
  have hjoin : key.toList ++ ' ' :: '=' :: ' ' :: value =
      [' '].intercalate [key.toList,['='],value] := by simp [List.intercalate]
  rw [hjoin,List.splitOn_intercalate]
  · simpa using ⟨(not_mem_key h).2.2.1,hv⟩
  · simp

theorem readField_text {key value : String} (hk : isBareKey key = true)
    (hv : isPlainText value = true) :
    readField (Line.text key value).render.toList = some (.text key value) := by
  have hjoin : (Line.text key value).render.toList =
      ['"'].intercalate [key.toList ++ [' ','=',' '],value.toList,[]] := by
    simp [Line.render,List.intercalate]
  have hsplit : (Line.text key value).render.toList.splitOn '"' =
      [key.toList ++ [' ','=',' '],value.toList,[]] := by
    rw [hjoin,List.splitOn_intercalate]
    · have hvalue : '"' ∉ value.toList := fun hc => (plainText_mem hv hc).2 rfl
      simpa using ⟨(not_mem_key hk).2.1,hvalue⟩
    · simp
  have hkey : (key.toList ++ ' ' :: '=' :: ' ' :: []).splitOn ' ' = [key.toList,['='],[]] :=
    split_assignment hk (by simp)
  simp [readField,hsplit,hkey]

theorem readField_number {key : String} (hk : isBareKey key = true) (n : Nat) :
    readField (Line.number key n).render.toList = some (.number key n) := by
  have hrender : (Line.number key n).render.toList =
      key.toList ++ ' ' :: '=' :: ' ' :: Nat.toDigits 10 n := by
    simp [Line.render]
  have hquote : (Line.number key n).render.toList.splitOn '"' =
      [(Line.number key n).render.toList] := by
    have hnot : '"' ∉ (Line.number key n).render.toList := by
      rw [hrender]
      have hdigits : '"' ∉ Nat.toDigits 10 n := fun hc => (digit_ne hc).2.1 rfl
      simpa using ⟨(not_mem_key hk).2.1,hdigits⟩
    have hone : ∀ cs ∈ [(Line.number key n).render.toList], '"' ∉ cs := by simpa using hnot
    have hjoin := List.splitOn_intercalate '"' hone (by simp)
    simpa [List.intercalate] using hjoin
  have hdigits : ' ' ∉ Nat.toDigits 10 n := fun hc => (digit_ne hc).2.2 rfl
  have hall : (Nat.toDigits 10 n).all Char.isDigit = true :=
    List.all_eq_true.mpr fun c hc => Nat.isDigit_of_mem_toDigits (by omega) (by omega) hc
  unfold readField
  rw [hquote]
  simp only [hrender,split_assignment hk hdigits,hall,ne_eq,Nat.toDigits_ne_nil,
    not_false_eq_true,and_self,if_true,String.ofList_toList,Nat.ofDigitChars_ten_toDigits]

theorem readLine_table {name : String} (h : isBareKey name = true) :
    readLine (Line.table name).render.toList = some (.table name) := by
  have hrender : (Line.table name).render.toList =
      '[' :: '[' :: (name.toList ++ [']',']']) := by
    simp [Line.render]
  have hjoin : name.toList ++ [']',']'] = [']'].intercalate [name.toList,[],[]] := by
    simp [List.intercalate]
  have hsplit : (name.toList ++ [']',']']).splitOn ']' = [name.toList,[],[]] := by
    rw [hjoin,List.splitOn_intercalate]
    · simpa using (not_mem_key h).2.2.2
    · simp
  simp [readLine,hrender,hsplit]

theorem readLine_key {key : String} (h : isBareKey key = true) (rest : List Char) :
    readLine (key.toList ++ rest) = readField (key.toList ++ rest) := by
  obtain ⟨c,cs,hl,hc⟩ := bareKey_cons h
  obtain ⟨-,-,-,hhash,hbracket,-⟩ := bare_ne hc
  rw [hl]
  simp [readLine,hhash,hbracket]

theorem readLine_render {l : Line} (h : l.isClean = true) :
    readLine l.render.toList = some l := by
  cases l with
  | comment s => simp [readLine,Line.render]
  | blank => simp [readLine,Line.render]
  | text key value =>
    simp only [Line.isClean,Bool.and_eq_true] at h
    have hkey := readLine_key h.1 (" = \"" ++ value ++ "\"").toList
    have hrender : (Line.text key value).render.toList =
        key.toList ++ (" = \"" ++ value ++ "\"").toList := by simp [Line.render]
    rw [hrender,hkey,← hrender]
    exact readField_text h.1 h.2
  | number key value =>
    simp only [Line.isClean,Bool.and_eq_true] at h
    have hkey := readLine_key h.1 (" = " ++ toString value).toList
    have hrender : (Line.number key value).render.toList =
        key.toList ++ (" = " ++ toString value).toList := by simp [Line.render]
    rw [hrender,hkey,← hrender]
    exact readField_number h.1 value
  | table name => exact readLine_table h

theorem newline_not_mem {l : Line} (h : l.isClean = true) : '\n' ∉ l.render.toList := by
  cases l with
  | comment s =>
    have hs : '\n' ∉ s.toList := fun hc => printable_ne (List.all_eq_true.mp h _ hc) rfl
    simpa [Line.render] using hs
  | blank => simp [Line.render]
  | text key value =>
    simp only [Line.isClean,Bool.and_eq_true] at h
    have hv : '\n' ∉ value.toList := fun hc => printable_ne (plainText_mem h.2 hc).1 rfl
    simpa [Line.render] using ⟨(not_mem_key h.1).1,hv⟩
  | number key value =>
    simp only [Line.isClean,Bool.and_eq_true] at h
    have hv : '\n' ∉ Nat.toDigits 10 value := fun hc => (digit_ne hc).1 rfl
    simpa [Line.render] using ⟨(not_mem_key h.1).1,hv⟩
  | table name => simpa [Line.render] using (not_mem_key h).1

theorem renderLines_eq (lines : List Line) : renderLines lines =
    ['\n'].intercalate (lines.map (fun l => l.render.toList) ++ [[]]) := by
  induction lines with
  | nil => rfl
  | cons l rest ih =>
    have hne : rest.map (fun l => l.render.toList) ++ [[]] ≠ [] := by simp
    rw [List.map_cons,List.cons_append,List.intercalate_cons_of_ne_nil hne,← ih]
    simp [renderLines]

theorem readLines_renderLines {lines : List Line} (h : ∀ l ∈ lines, l.isClean = true) :
    readLines (renderLines lines) = some (lines ++ [.blank]) := by
  have hsplit : (renderLines lines).splitOn '\n' =
      lines.map (fun l => l.render.toList) ++ [[]] := by
    rw [renderLines_eq,List.splitOn_intercalate]
    · intro cs hcs
      rcases List.mem_append.mp hcs with hmem | hlast
      · obtain ⟨l,hl,rfl⟩ := List.mem_map.mp hmem
        exact newline_not_mem (h l hl)
      · rw [List.mem_singleton.mp hlast]
        simp
    · simp
  unfold readLines
  rw [hsplit]
  clear hsplit
  induction lines with
  | nil => rfl
  | cons l rest ih =>
    have hl := readLine_render (h l List.mem_cons_self)
    have hrest := ih fun l' hl' => h l' (List.mem_cons_of_mem _ hl')
    simp [hl,hrest]

inductive Value where
  | text (s : String)
  | number (n : Nat)
  deriving DecidableEq

structure Document where
  fields : List (String × Value)
  tables : List (String × List (String × Value))
  deriving DecidableEq

def document : List Line → Document
  | [] => ⟨[],[]⟩
  | .comment _ :: rest => document rest
  | .blank :: rest => document rest
  | .text key value :: rest =>
    let doc := document rest
    { doc with fields := (key,.text value) :: doc.fields }
  | .number key value :: rest =>
    let doc := document rest
    { doc with fields := (key,.number value) :: doc.fields }
  | .table name :: rest =>
    let doc := document rest
    ⟨[],(name,doc.fields) :: doc.tables⟩

@[simp] theorem document_append_blank (lines : List Line) :
    document (lines ++ [.blank]) = document lines := by
  induction lines with
  | nil => rfl
  | cons l rest ih => cases l <;> simp [document,ih]

section Bytes

def encode (cs : List Char) : List UInt8 := cs.flatMap String.utf8EncodeChar

def readAscii (bytes : List UInt8) : List Char := bytes.map fun b => Char.ofNat b.toNat

theorem utf8EncodeChar_ascii {c : Char} (h : c.toNat < 128) :
    String.utf8EncodeChar c = [c.toNat.toUInt8] := by
  have hsize : c.utf8Size = 1 := by
    rw [Char.utf8Size_eq_one_iff]
    exact UInt32.le_iff_toNat_le.mpr (Nat.le_of_lt_succ h)
  rw [String.utf8EncodeChar_eq_singleton hsize]
  rfl

theorem readAscii_encode {cs : List Char} (h : ∀ c ∈ cs, c.toNat < 128) :
    readAscii (encode cs) = cs := by
  induction cs with
  | nil => rfl
  | cons c cs ih =>
    have hc := h c List.mem_cons_self
    have hrest := ih fun c' hc' => h c' (List.mem_cons_of_mem _ hc')
    have hchar : Char.ofNat c.toNat.toUInt8.toNat = c := by
      rw [show c.toNat.toUInt8.toNat = c.toNat from Nat.mod_eq_of_lt (by omega)]
      exact Char.ofNat_toNat c
    simp only [encode,readAscii,List.flatMap_cons,utf8EncodeChar_ascii hc,List.map_cons,
      List.cons_append,List.nil_append,hchar] at hrest ⊢
    rw [hrest]

theorem bare_ascii {c : Char} (h : bare c = true) : c.toNat < 128 := by
  simp only [bare,Bool.or_eq_true,decide_eq_true_eq] at h
  rcases h with (h | rfl) | rfl
  · have hz : 'z'.val.toNat = 122 := rfl
    have hZ : 'Z'.val.toNat = 90 := rfl
    have h9 : '9'.val.toNat = 57 := rfl
    have hval : c.toNat = c.val.toNat := rfl
    have halpha : c.isAlpha = (c.isUpper || c.isLower) := rfl
    have hupper : c.isUpper = decide (c.val ≥ 'A'.val ∧ c.val ≤ 'Z'.val) := rfl
    have hlower : c.isLower = (decide (c.val ≥ 'a'.val) && decide (c.val ≤ 'z'.val)) := rfl
    simp only [Char.isAlphanum,halpha,hupper,hlower,Char.isDigit,
      Bool.or_eq_true,Bool.and_eq_true,decide_eq_true_eq,UInt32.le_iff_toNat_le,ge_iff_le] at h
    omega
  · decide
  · decide

theorem printable_ascii {c : Char} (h : printable c = true) : c.toNat < 128 := by
  simp only [printable,Bool.and_eq_true,decide_eq_true_eq] at h
  omega

theorem digit_ascii {n : Nat} {c : Char} (hc : c ∈ Nat.toDigits 10 n) : c.toNat < 128 := by
  have h : c.isDigit = true := Nat.isDigit_of_mem_toDigits (by omega) (by omega) hc
  exact bare_ascii (by simp [bare,Char.isAlphanum,h])

theorem mem_ascii {s : String} (h : s.toList.all (fun c => c.toNat < 128) = true) {c : Char}
    (hc : c ∈ s.toList) : c.toNat < 128 := by
  simpa using List.all_eq_true.mp h c hc

theorem render_ascii {l : Line} (h : l.isClean = true) {c : Char} (hc : c ∈ l.render.toList) :
    c.toNat < 128 := by
  cases l with
  | comment s =>
    simp only [Line.render,String.toList_append,List.mem_append] at hc
    rcases hc with hc | hc
    · rw [List.mem_singleton.mp hc]
      decide
    · exact printable_ascii (List.all_eq_true.mp h c hc)
  | blank => simp [Line.render] at hc
  | text key value =>
    simp only [Line.isClean,Bool.and_eq_true] at h
    simp only [Line.render,String.toList_append,List.mem_append] at hc
    rcases hc with ((hc | hc) | hc) | hc
    · exact bare_ascii (bareKey_mem h.1 hc)
    · exact mem_ascii (by decide) hc
    · exact printable_ascii (plainText_mem h.2 hc).1
    · exact mem_ascii (by decide) hc
  | number key value =>
    simp only [Line.isClean,Bool.and_eq_true] at h
    simp only [Line.render,String.toList_append,List.mem_append] at hc
    rcases hc with (hc | hc) | hc
    · exact bare_ascii (bareKey_mem h.1 hc)
    · exact mem_ascii (by decide) hc
    · rw [Nat.toString_eq_repr,Nat.toList_repr] at hc
      exact digit_ascii hc
  | table name =>
    simp only [Line.render,String.toList_append,List.mem_append] at hc
    rcases hc with (hc | hc) | hc
    · exact mem_ascii (by decide) hc
    · exact bare_ascii (bareKey_mem h hc)
    · exact mem_ascii (by decide) hc

theorem readLines_readAscii {lines : List Line} (h : ∀ l ∈ lines, l.isClean = true) :
    readLines (readAscii (encode (renderLines lines))) = some (lines ++ [.blank]) := by
  rw [readAscii_encode,readLines_renderLines h]
  intro c hc
  obtain ⟨l,hl,hmem⟩ := List.mem_flatMap.mp hc
  rcases List.mem_append.mp hmem with hr | hn
  · exact render_ascii (h l hl) hr
  · rw [List.mem_singleton.mp hn]
    decide

end Bytes
end MeshNetwork.TomlLines
