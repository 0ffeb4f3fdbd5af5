import MethodSynthesis.Proofs.Stability

/-!
# The unique reading of built-in types

A built-in type is the unknown type, a primitive one, or a tuple, an array, a domain or a C pointer
of built-in types. Its written form begins with a word, which may be empty, and goes on with
brackets around the forms of its parts (`TypeData.word`, `TypeData.brackets`).

The form of an array does not end with a bracket, and the word of one primitive type is a prefix of
that of another. So forms are compared together with what follows them: where a form ends, the text
ends or goes on with a comma or a closing bracket (`Follows`). Two texts that are equal so far then
have the same word, the same brackets and, by induction, the same parts (`Builtin.readsBack`). Hence
built-in types with the same written form are the same type (`render_injective`).
-/

set_option autoImplicit false

namespace MethodSynthesis

/-! ## Words and brackets -/

/-- The characters that set off the words of a written form. -/
def marks : List Char := ['(', ')', '[', ']', ',', ' ']

/-- What stands behind the written form of a part. -/
def Follows (rest : List Char) : Prop := ∀ c ∈ rest.head?, c = ',' ∨ c = ')' ∨ c = ']'

theorem follows_nil : Follows [] := by simp [Follows]

theorem follows_comma (rest : List Char) : Follows (',' :: rest) := by simp [Follows]

theorem follows_paren (rest : List Char) : Follows (')' :: rest) := by simp [Follows]

theorem follows_bracket (rest : List Char) : Follows (']' :: rest) := by simp [Follows]

theorem Follows.marked {rest : List Char} (follows : Follows rest) :
    ∀ c ∈ rest.head?, c ∈ marks := by
  intro c mem
  rcases follows c mem with rfl | rfl | rfl <;> simp [marks]

theorem takeWhile_plain {word rest : List Char} (plain : ∀ c ∈ word, c ∉ marks)
    (marked : ∀ c ∈ rest.head?, c ∈ marks) : (word ++ rest).takeWhile (· ∉ marks) = word := by
  rw [List.takeWhile_append_of_pos fun c mem => decide_eq_true (plain c mem)]
  cases rest with
  | nil => simp
  | cons c rest => simp [marked c rfl]

/-- A word ends where the first mark stands. -/
theorem word_unique {word word' rest rest' : List Char} (plain : ∀ c ∈ word, c ∉ marks)
    (plain' : ∀ c ∈ word', c ∉ marks) (marked : ∀ c ∈ rest.head?, c ∈ marks)
    (marked' : ∀ c ∈ rest'.head?, c ∈ marks) (eq : word ++ rest = word' ++ rest') :
    word = word' ∧ rest = rest' := by
  have word_eq : word = word' := by
    rw [← takeWhile_plain plain marked, eq, takeWhile_plain plain' marked']
  subst word_eq
  exact ⟨rfl, List.append_cancel_left eq⟩

/-- The digits of a number end where the first mark stands. -/
theorem digits_unique {n n' : Nat} {rest rest' : List Char}
    (eq : (toString n).toList ++ ',' :: rest = (toString n').toList ++ ',' :: rest') :
    n = n' ∧ rest = rest' := by
  have plain : ∀ n : Nat, ∀ c ∈ (toString n).toList, c ∉ marks := by
    intro n c mem mark
    rw [Nat.toString_eq_repr, Nat.toList_repr] at mem
    have digit := Nat.isDigit_of_mem_toDigits (by decide) (by decide) mem
    simp only [marks, List.mem_cons, List.not_mem_nil, or_false] at mark
    rcases mark with rfl | rfl | rfl | rfl | rfl | rfl <;> cases digit
  obtain ⟨digits_eq, rest_eq⟩ := word_unique (plain n) (plain n')
    (follows_comma rest).marked (follows_comma rest').marked eq
  exact ⟨Nat.repr_inj.1 (String.toList_inj.1 digits_eq), List.tail_eq_of_cons_eq rest_eq⟩

namespace Primitive

/-- No primitive type has the word of another form. -/
theorem text_ne (p : Primitive) :
    p.text ≠ "" ∧ p.text ≠ "<none>" ∧ p.text ≠ "domain" ∧ p.text ≠ "c_ptr" := by
  cases p <;> decide

theorem text_injective {p p' : Primitive} (eq : p.text = p'.text) : p = p' := by
  revert eq
  cases p <;> cases p' <;> decide

theorem text_plain (p : Primitive) : ∀ c ∈ p.text.toList, c ∉ marks := by
  cases p <;> simp [text, marks]

end Primitive

namespace TypeData

/-- Whether a structure is of one of the built-in forms. -/
def isBuiltin : TypeData → Bool
  | .composite _ | .decorated _ _ | .enumeration _ => false
  | _ => true

/-- The word that the form of a structure begins with; no structure is that of the unknown type. -/
def word : Option TypeData → String
  | none => "<none>"
  | some (.primitive p) => p.text
  | some (.rectangular _ _ _) | some (.associative _ _) => "domain"
  | some (.cPtr _) => "c_ptr"
  | some _ => ""

/-- The forms of the parts behind the first one, and what follows them. -/
def further (text : TypeId → String) : List TypeId → List Char → List Char
  | [], rest => rest
  | part :: parts, rest => ',' :: ' ' :: ((text part).toList ++ further text parts rest)

/-- The forms of some parts, and what follows them. -/
def listed (text : TypeId → String) : List TypeId → List Char → List Char
  | [], rest => rest
  | part :: parts, rest => (text part).toList ++ further text parts rest

/-- A word that is written if a flag is set, the closing bracket and what follows it. -/
def flagged (word : String) (flag : Bool) (rest : List Char) : List Char :=
  if flag then ',' :: ' ' :: (word.toList ++ ')' :: rest) else ')' :: rest

/-- The brackets of a structure with its parts in them, and what follows them. -/
def brackets (text : TypeId → String) : Option TypeData → List Char → List Char
  | some (.tuple elements), rest => '(' :: listed text elements (')' :: rest)
  | some (.array domain element), rest =>
    '[' :: ((text domain).toList ++ ']' :: ' ' :: ((text element).toList ++ rest))
  | some (.rectangular rank index strided), rest =>
    '(' :: ((toString rank).toList ++
      ',' :: ' ' :: ((text index).toList ++ flagged "strided" strided rest))
  | some (.associative index parSafe), rest =>
    '(' :: ((text index).toList ++ flagged "parSafe" parSafe rest)
  | some (.cPtr element), rest => '(' :: ((text element).toList ++ ')' :: rest)
  | _, rest => rest

section Forms

variable {text : TypeId → String} {data data' : Option TypeData} {rest rest' : List Char}

theorem word_plain (data : Option TypeData) : ∀ c ∈ (word data).toList, c ∉ marks := by
  rcases data with _ | data
  · simp [word, marks]
  · cases data with
    | primitive p => exact p.text_plain
    | _ => simp [word, marks]

theorem brackets_marked (follows : Follows rest) :
    ∀ c ∈ (brackets text data rest).head?, c ∈ marks := by
  rcases data with _ | data
  · exact follows.marked
  · cases data
    all_goals first
      | exact follows.marked
      | simp [brackets, marks]

theorem follows_further (parts : List TypeId) (rest : List Char) :
    Follows (further text parts (')' :: rest)) := by
  cases parts with
  | nil => exact follows_paren rest
  | cons => exact follows_comma _

theorem follows_flagged (word : String) (flag : Bool) (rest : List Char) :
    Follows (flagged word flag rest) := by
  cases flag
  · exact follows_paren rest
  · exact follows_comma _

theorem flagged_unique {word : String} {flag flag' : Bool}
    (eq : flagged word flag rest = flagged word flag' rest') : flag = flag' ∧ rest = rest' := by
  cases flag <;> cases flag' <;> simp_all [flagged]

/-! ## The texts that read back -/

/-- A text begins neither like a number nor with the end of a list. -/
def Headed (text : String) : Prop :=
  text.toList.head?.any (fun c => !c.isDigit && c != ')') = true

theorem Headed.head {form : String} (headed : Headed form) :
    ∃ c cs, form.toList = c :: cs ∧ c.isDigit = false ∧ c ≠ ')' := by
  rw [Headed] at headed
  cases eq : form.toList with
  | nil => simp [eq] at headed
  | cons c cs => exact ⟨c, cs, rfl, by simpa [eq] using headed⟩

theorem Headed.append_ne_paren {form : String} (headed : Headed form) {behind : List Char} :
    form.toList ++ behind ≠ ')' :: rest := by
  obtain ⟨c, cs, eq, -, ne⟩ := headed.head
  rw [eq]
  exact fun same => ne (List.cons.inj same).1

theorem Headed.append_ne_digits {form : String} (headed : Headed form) {behind : List Char}
    {n : Nat} :
    form.toList ++ behind ≠ (toString n).toList ++ rest := by
  obtain ⟨c, cs, eq, not_digit, -⟩ := headed.head
  rw [eq, Nat.toString_eq_repr, Nat.toList_repr]
  cases digits : Nat.toDigits 10 n with
  | nil => exact absurd digits Nat.toDigits_ne_nil
  | cons d ds =>
    intro same
    have digit : d.isDigit = true :=
      Nat.isDigit_of_mem_toDigits (by decide) (by decide) (digits ▸ List.mem_cons_self)
    rw [← (List.cons.inj same).1, not_digit] at digit
    cases digit

/-- The text of `ty`, with whatever may follow it, is that of no other type among `known`. -/
def ReadsBack (known : TypeId → Prop) (text : TypeId → String) (ty : TypeId) : Prop :=
  ∀ ty' rest rest', known ty' → Follows rest → Follows rest' →
    (text ty).toList ++ rest = (text ty').toList ++ rest' → ty = ty' ∧ rest = rest'

variable {known : TypeId → Prop}

theorem further_unique {parts parts' : List TypeId}
    (back : ∀ part ∈ parts, ReadsBack known text part) (other : ∀ part ∈ parts', known part)
    (eq : further text parts (')' :: rest) = further text parts' (')' :: rest')) :
    parts = parts' ∧ rest = rest' := by
  induction parts generalizing parts' with
  | nil =>
    cases parts' with
    | nil => exact ⟨rfl, List.tail_eq_of_cons_eq eq⟩
    | cons part' parts' => simp [further] at eq
  | cons part parts ih =>
    cases parts' with
    | nil => simp [further] at eq
    | cons part' parts' =>
      have behind := List.tail_eq_of_cons_eq (List.tail_eq_of_cons_eq eq)
      obtain ⟨rfl, tails⟩ := back part List.mem_cons_self part' _ _ (other part' List.mem_cons_self)
        (follows_further parts rest) (follows_further parts' rest') behind
      obtain ⟨rfl, rest_eq⟩ := ih (fun p mem => back p (List.mem_cons_of_mem _ mem))
        (fun p mem => other p (List.mem_cons_of_mem _ mem)) tails
      exact ⟨rfl, rest_eq⟩

theorem listed_unique {parts parts' : List TypeId}
    (back : ∀ part ∈ parts, ReadsBack known text part) (headed : ∀ part ∈ parts, Headed (text part))
    (other : ∀ part ∈ parts', known part) (headed' : ∀ part ∈ parts', Headed (text part))
    (eq : listed text parts (')' :: rest) = listed text parts' (')' :: rest')) :
    parts = parts' ∧ rest = rest' := by
  cases parts with
  | nil =>
    cases parts' with
    | nil => exact ⟨rfl, List.tail_eq_of_cons_eq eq⟩
    | cons part' parts' =>
      exact absurd eq.symm (headed' part' List.mem_cons_self).append_ne_paren
  | cons part parts =>
    cases parts' with
    | nil => exact absurd eq (headed part List.mem_cons_self).append_ne_paren
    | cons part' parts' =>
      -- behind a comma, both lists would be further parts
      exact further_unique back other (congrArg (fun behind => ',' :: ' ' :: behind) eq)

/-- Two structures of one built-in form, and of one primitive type if they are primitive. -/
inductive SameForm : Option TypeData → Option TypeData → Prop
  | unknown : SameForm none none
  | primitive (p : Primitive) : SameForm (some (.primitive p)) (some (.primitive p))
  | tuple (parts parts' : List TypeId) : SameForm (some (.tuple parts)) (some (.tuple parts'))
  | array (domain domain' element element' : TypeId) :
    SameForm (some (.array domain element)) (some (.array domain' element'))
  | rectangular (rank rank' : Nat) (index index' : TypeId) (strided strided' : Bool) :
    SameForm (some (.rectangular rank index strided)) (some (.rectangular rank' index' strided'))
  | associative (index index' : TypeId) (parSafe parSafe' : Bool) :
    SameForm (some (.associative index parSafe)) (some (.associative index' parSafe'))
  | cPtr (element element' : TypeId) : SameForm (some (.cPtr element)) (some (.cPtr element'))

/-- The word tells the forms apart, save those of a tuple and an array, which differ in the bracket,
and those of the two domains, of which one goes on with a number. -/
theorem sameForm (builtin : data.all isBuiltin = true) (builtin' : data'.all isBuiltin = true)
    (headed : ∀ d ∈ data, ∀ part ∈ d.components, Headed (text part))
    (headed' : ∀ d ∈ data', ∀ part ∈ d.components, Headed (text part))
    (words : word data = word data')
    (behind : brackets text data rest = brackets text data' rest') : SameForm data data' := by
  rcases data with _ | data
  · rcases data' with _ | data'
    · exact .unknown
    · cases data' with
      | primitive p => exact absurd words.symm p.text_ne.2.1
      | _ => simp [word] at words
  rcases data' with _ | data'
  · cases data with
    | primitive p => exact absurd words p.text_ne.2.1
    | _ => simp [word] at words
  cases data with
  | primitive p =>
    cases data' with
    | primitive p' =>
      obtain rfl := Primitive.text_injective words
      exact .primitive p
    | _ => simp [word, Primitive.text_ne] at words
  | tuple parts =>
    cases data' with
    | tuple parts' => exact .tuple parts parts'
    | array => simp [brackets] at behind
    | primitive p => exact absurd words.symm p.text_ne.1
    | composite | decorated | enumeration => cases builtin'
    | _ => simp [word] at words
  | array domain element =>
    cases data' with
    | array domain' element' => exact .array domain domain' element element'
    | tuple => simp [brackets] at behind
    | primitive p => exact absurd words.symm p.text_ne.1
    | composite | decorated | enumeration => cases builtin'
    | _ => simp [word] at words
  | rectangular rank index strided =>
    cases data' with
    | rectangular rank' index' strided' => exact .rectangular ..
    | associative index' parSafe' =>
      exact absurd (List.tail_eq_of_cons_eq behind).symm
        (headed' _ rfl index' List.mem_cons_self).append_ne_digits
    | _ => simp [word, (Primitive.text_ne _).2.2.1.symm] at words
  | associative index parSafe =>
    cases data' with
    | associative index' parSafe' => exact .associative ..
    | rectangular rank' index' strided' =>
      exact absurd (List.tail_eq_of_cons_eq behind)
        (headed _ rfl index List.mem_cons_self).append_ne_digits
    | _ => simp [word, (Primitive.text_ne _).2.2.1.symm] at words
  | cPtr element =>
    cases data' with
    | cPtr element' => exact .cPtr element element'
    | _ => simp [word, (Primitive.text_ne _).2.2.2.symm] at words
  | _ => cases builtin

/-- A built-in form is determined by its word and its brackets, if the texts of its parts read
back. -/
theorem form_unique (builtin : data.all isBuiltin = true) (builtin' : data'.all isBuiltin = true)
    (back : ∀ d ∈ data, ∀ part ∈ d.components, ReadsBack known text part)
    (headed : ∀ d ∈ data, ∀ part ∈ d.components, Headed (text part))
    (other : ∀ d ∈ data', ∀ part ∈ d.components, known part)
    (headed' : ∀ d ∈ data', ∀ part ∈ d.components, Headed (text part))
    (follows : Follows rest) (follows' : Follows rest')
    (eq : (word data).toList ++ brackets text data rest =
      (word data').toList ++ brackets text data' rest') : data = data' ∧ rest = rest' := by
  obtain ⟨words, behind⟩ := word_unique (word_plain data) (word_plain data')
    (brackets_marked follows) (brackets_marked follows') eq
  cases sameForm builtin builtin' headed headed' (String.toList_inj.1 words) behind with
  | unknown => exact ⟨rfl, behind⟩
  | primitive p => exact ⟨rfl, behind⟩
  | tuple parts parts' =>
    obtain ⟨rfl, rest_eq⟩ := listed_unique (back _ rfl) (headed _ rfl) (other _ rfl) (headed' _ rfl)
      (List.tail_eq_of_cons_eq behind)
    exact ⟨rfl, rest_eq⟩
  | array domain domain' element element' =>
    obtain ⟨rfl, elements⟩ := back _ rfl domain (by simp [components]) domain' _ _
      (other _ rfl domain' (by simp [components])) (follows_bracket _) (follows_bracket _)
      (List.tail_eq_of_cons_eq behind)
    obtain ⟨rfl, rest_eq⟩ := back _ rfl element (by simp [components]) element' _ _
      (other _ rfl element' (by simp [components])) follows follows'
      (List.tail_eq_of_cons_eq (List.tail_eq_of_cons_eq elements))
    exact ⟨rfl, rest_eq⟩
  | rectangular rank rank' index index' strided strided' =>
    obtain ⟨rfl, indices⟩ := digits_unique (List.tail_eq_of_cons_eq behind)
    obtain ⟨rfl, flags⟩ := back _ rfl index List.mem_cons_self index' _ _
      (other _ rfl index' List.mem_cons_self) (follows_flagged _ _ _) (follows_flagged _ _ _)
      (List.tail_eq_of_cons_eq indices)
    obtain ⟨rfl, rest_eq⟩ := flagged_unique flags
    exact ⟨rfl, rest_eq⟩
  | associative index index' parSafe parSafe' =>
    obtain ⟨rfl, flags⟩ := back _ rfl index List.mem_cons_self index' _ _
      (other _ rfl index' List.mem_cons_self) (follows_flagged _ _ _) (follows_flagged _ _ _)
      (List.tail_eq_of_cons_eq behind)
    obtain ⟨rfl, rest_eq⟩ := flagged_unique flags
    exact ⟨rfl, rest_eq⟩
  | cPtr element element' =>
    obtain ⟨rfl, ends⟩ := back _ rfl element List.mem_cons_self element' _ _
      (other _ rfl element' List.mem_cons_self) (follows_paren _) (follows_paren _)
      (List.tail_eq_of_cons_eq behind)
    exact ⟨rfl, List.tail_eq_of_cons_eq ends⟩

/-- The form of a built-in structure begins with its word or its bracket. -/
theorem headed_form {form : String} (builtin : data.all isBuiltin = true)
    (eq : form.toList = (word data).toList ++ brackets text data []) : Headed form := by
  rw [Headed, eq]
  rcases data with _ | data
  · rfl
  · cases data with
    | primitive p => cases p <;> rfl
    | composite | decorated | enumeration => cases builtin
    | tuple | array => rfl
    | rectangular | associative | cPtr => simp [word]

end Forms

end TypeData

/-! ## The forms of built-in types -/

theorem commaSeparated_map (text : TypeId → String) (parts : List TypeId) (rest : List Char) :
    (commaSeparated (parts.map text)).toList ++ rest = TypeData.listed text parts rest := by
  induction parts with
  | nil => rfl
  | cons part parts ih =>
    cases parts with
    | nil => rfl
    | cons next parts =>
      rw [List.map_cons, List.map_cons, commaSeparated, ← List.map_cons]
      · rw [String.toList_append, String.toList_append, List.append_assoc, List.append_assoc, ih]
        simp [TypeData.listed, TypeData.further]
      · simp

namespace TypePool

variable {pool pool' : TypePool} {names : NameTable}

open TypeData

/-- To write a built-in structure is to write its word and its brackets. -/
theorem renderStep_builtin {data : TypeData} (builtin : data.isBuiltin = true)
    {part : TypeId → Except Fault String} {text : TypeId → String}
    (parts : ∀ ty ∈ data.components, part ty = .ok (text ty)) :
    ∃ form : String, renderStep names data part = .ok form ∧
      ∀ rest, form.toList ++ rest =
        (word (some data)).toList ++ brackets text (some data) rest := by
  cases data with
  | primitive p => exact ⟨p.text, rfl, fun _ => rfl⟩
  | tuple elements =>
    have texts : elements.mapM part = .ok (elements.map text) := mapM_eq_ok parts
    refine ⟨"(" ++ commaSeparated (elements.map text) ++ ")",
      by simp only [renderStep, texts]; rfl, ?_⟩
    intro rest
    simp [word, brackets, ← commaSeparated_map]
  | array domain element =>
    have domain_text := parts domain (by simp [components])
    have element_text := parts element (by simp [components])
    refine ⟨"[" ++ text domain ++ "] " ++ text element,
      by simp only [renderStep, domain_text, element_text]; rfl, ?_⟩
    intro rest
    simp [word, brackets]
  | rectangular rank index strided =>
    have index_text := parts index List.mem_cons_self
    refine ⟨"domain(" ++ toString rank ++ ", " ++ text index ++
      (if strided then ", strided" else "") ++ ")", by simp only [renderStep, index_text]; rfl, ?_⟩
    intro rest
    cases strided <;> simp [word, brackets, flagged]
  | associative index parSafe =>
    have index_text := parts index List.mem_cons_self
    refine ⟨"domain(" ++ text index ++ (if parSafe then ", parSafe" else "") ++ ")",
      by simp only [renderStep, index_text]; rfl, ?_⟩
    intro rest
    cases parSafe <;> simp [word, brackets, flagged]
  | cPtr element =>
    have element_text := parts element List.mem_cons_self
    refine ⟨"c_ptr(" ++ text element ++ ")", by simp only [renderStep, element_text]; rfl, ?_⟩
    intro rest
    simp [word, brackets]
  | composite | decorated | enumeration => cases builtin

/-- The types that are built from the unknown and the primitive ones by the built-in forms. -/
inductive Builtin (pool : TypePool) : TypeId → Prop
  | unknown : Builtin pool .unknown
  | stored {ty : TypeId} {data : TypeData} (read : pool.read? ty = some data)
      (form : data.isBuiltin = true) (parts : ∀ part ∈ data.components, Builtin pool part) :
      Builtin pool ty

namespace Builtin

theorem admits {ty : TypeId} (builtin : pool.Builtin ty) : pool.Admits ty := by
  cases builtin with
  | unknown => exact .inl rfl
  | stored read => exact admits_of_read? read

theorem primitive (wf : pool.WellFormed) (p : Primitive) : pool.Builtin (.primitive p) :=
  .stored (wf.primitives p) rfl fun _ mem => nomatch mem

theorem form {ty : TypeId} (builtin : pool.Builtin ty) :
    (pool.read? ty).all isBuiltin = true := by
  cases builtin with
  | unknown => rfl
  | stored read form => rw [read]; exact form

theorem parts {ty : TypeId} (builtin : pool.Builtin ty) :
    ∀ d ∈ pool.read? ty, ∀ part ∈ d.components, pool.Builtin part := by
  cases builtin with
  | unknown => exact fun _ h => nomatch h
  | stored read _ parts =>
    rintro d mem
    rw [read] at mem
    obtain rfl := Option.some.inj mem
    exact parts

/-- Built-in types stay so when the pool grows. -/
theorem of_extends {ty : TypeId} (ext : pool.Extends pool') (wf : pool.table.WellFormed)
    (wf' : pool'.table.WellFormed) (builtin : pool.Builtin ty) : pool'.Builtin ty := by
  induction builtin with
  | unknown => exact .unknown
  | stored read form _ ih => exact .stored (ext.read? wf wf' read) form ih

/-- A built-in form over built-in types is stored as a built-in type. -/
theorem intern {data : TypeData} (wf : pool.WellFormed) (form : data.isBuiltin = true)
    (parts : ∀ part ∈ data.components, pool.Builtin part) :
    (pool.intern data).2.Builtin (pool.intern data).1 := by
  have wf' := wf.intern fun part mem => (parts part mem).admits
  exact .stored (read?_intern wf.table data) form fun part mem =>
    (parts part mem).of_extends (extends_intern pool data) wf.table wf'.table

/-- A built-in type has its structure to itself. -/
theorem eq_of_read?_eq (wf : pool.WellFormed) {ty ty' : TypeId} (builtin : pool.Builtin ty)
    (builtin' : pool.Builtin ty') (eq : pool.read? ty = pool.read? ty') : ty = ty' := by
  cases builtin with
  | unknown =>
    cases builtin' with
    | unknown => rfl
    | stored read' => rw [read'] at eq; cases eq
  | stored read => exact eq_of_read? wf.table read (eq.symm.trans read)

end Builtin

/-- The written form of a type that has one. -/
def text (pool : TypePool) (names : NameTable) (ty : TypeId) : String :=
  (pool.render names ty).toOption.getD ""

theorem text_eq {ty : TypeId} {form : String} (eq : pool.render names ty = .ok form) :
    pool.text names ty = form := by
  rw [text, eq]
  rfl

/-- A built-in type has a written form, which is the word and the brackets of its structure. -/
theorem Builtin.rendered (wf : pool.WellFormed) (names : NameTable) {ty : TypeId}
    (builtin : pool.Builtin ty) :
    pool.render names ty = .ok (pool.text names ty) ∧
      ∀ rest, (pool.text names ty).toList ++ rest = (word (pool.read? ty)).toList ++
        brackets (pool.text names) (pool.read? ty) rest := by
  induction builtin with
  | unknown =>
    have eq := render_unknown pool names
    exact ⟨eq.trans (congrArg _ (text_eq eq).symm), fun rest => by rw [text_eq eq]; rfl⟩
  | stored read form _ ih =>
    obtain ⟨written, eq, spelled⟩ := renderStep_builtin form fun part mem => (ih part mem).1
    rw [← wf.render_eq names read] at eq
    rw [read, text_eq eq]
    exact ⟨eq, spelled⟩

theorem Builtin.headed (wf : pool.WellFormed) (names : NameTable) {ty : TypeId}
    (builtin : pool.Builtin ty) : Headed (pool.text names ty) := by
  have spelled := (builtin.rendered wf names).2 []
  rw [List.append_nil] at spelled
  exact headed_form builtin.form spelled

/-- The step of the reading: a built-in type reads back if its parts do. -/
theorem Builtin.readsBack_of_parts (wf : pool.WellFormed) {ty : TypeId}
    (builtin : pool.Builtin ty)
    (back : ∀ d ∈ pool.read? ty, ∀ part ∈ d.components,
      ReadsBack pool.Builtin (pool.text names) part) :
    ReadsBack pool.Builtin (pool.text names) ty := by
  intro ty' rest rest' builtin' follows follows' eq
  rw [(builtin.rendered wf names).2, (builtin'.rendered wf names).2] at eq
  obtain ⟨same, rest_eq⟩ := form_unique builtin.form builtin'.form back
    (fun d mem part sub => (builtin.parts d mem part sub).headed wf names) builtin'.parts
    (fun d mem part sub => (builtin'.parts d mem part sub).headed wf names) follows follows' eq
  exact ⟨builtin.eq_of_read?_eq wf builtin' same, rest_eq⟩

/-- Where the form of a built-in type stands, only that type is read, and all of its form. -/
theorem Builtin.readsBack (wf : pool.WellFormed) (names : NameTable) {ty : TypeId}
    (builtin : pool.Builtin ty) : ReadsBack pool.Builtin (pool.text names) ty := by
  induction builtin with
  | unknown => exact Builtin.unknown.readsBack_of_parts wf fun _ none => nomatch none
  | stored read form parts ih =>
    refine (Builtin.stored read form parts).readsBack_of_parts wf fun d mem => ?_
    rw [read] at mem
    obtain rfl := Option.some.inj mem
    exact ih

/-- Built-in types have written forms, and these are equal for equal types only. -/
theorem render_injective (interned : pool.Interned) (names : NameTable) {ty ty' : TypeId}
    (builtin : pool.Builtin ty) (builtin' : pool.Builtin ty') :
    ∃ form form', pool.render names ty = .ok form ∧ pool.render names ty' = .ok form' ∧
      (form = form' ↔ ty = ty') := by
  have wf := interned.wellFormed
  have rendered := (builtin.rendered wf names).1
  have rendered' := (builtin'.rendered wf names).1
  refine ⟨_, _, rendered, rendered', ?_⟩
  constructor
  · intro same
    refine (builtin.readsBack wf names ty' [] [] builtin' follows_nil follows_nil ?_).1
    rw [same]
  · rintro rfl
    rfl

/-- The two-dimensional domain of integers, and the pool with it. -/
def grid : TypeId × TypePool := (empty Sharding.bySize.types).rectangular 2 .int false

/-- The arrays of integers over it. -/
def intGrid : TypeId × TypePool := grid.2.array grid.1 .int

/-- The arrays of any integral type over it. -/
def integralGrid : TypeId × TypePool := intGrid.2.array grid.1 .integral

/-- The identifiers that are always there. -/
def reservedNames : NameTable := .empty Sharding.bySize.names

/-- The form of one array begins with all of the form of the other, and yet they differ. -/
theorem grids_render : integralGrid.2.Interned ∧ integralGrid.2.Builtin intGrid.1 ∧
    integralGrid.2.Builtin integralGrid.1 ∧
    ∃ form form', integralGrid.2.render reservedNames intGrid.1 = .ok form ∧
      integralGrid.2.render reservedNames integralGrid.1 = .ok form' ∧ form ≠ form' := by
  have grids : grid.2.Interned := .intern _ (.empty _) (by decide)
  have ints : intGrid.2.Interned := .intern _ grids (by decide)
  have integrals : integralGrid.2.Interned := .intern _ ints (by decide)
  have later : grid.2.Extends intGrid.2 := extends_intern _ _
  have domain : grid.2.Builtin grid.1 := by
    refine .intern (wellFormed_empty _) rfl fun part mem => ?_
    obtain rfl := List.mem_singleton.1 mem
    exact .primitive (wellFormed_empty _) .int
  have ofInts : intGrid.2.Builtin intGrid.1 := by
    refine .intern grids.wellFormed rfl fun part mem => ?_
    obtain rfl | rfl : part = grid.1 ∨ part = .int := by simpa [components] using mem
    · exact domain
    · exact .primitive grids.wellFormed .int
  have ofIntegrals : integralGrid.2.Builtin integralGrid.1 := by
    refine .intern ints.wellFormed rfl fun part mem => ?_
    obtain rfl | rfl : part = grid.1 ∨ part = .integral := by simpa [components] using mem
    · exact domain.of_extends later grids.wellFormed.table ints.wellFormed.table
    · exact .primitive ints.wellFormed .integral
  have kept : integralGrid.2.Builtin intGrid.1 :=
    ofInts.of_extends (extends_intern _ _) ints.wellFormed.table integrals.wellFormed.table
  obtain ⟨form, form', written, written', iff⟩ :=
    render_injective integrals reservedNames kept ofIntegrals
  exact ⟨integrals, kept, ofIntegrals, form, form', written, written',
    fun same => absurd (iff.1 same) (by decide)⟩

end TypePool

end MethodSynthesis
