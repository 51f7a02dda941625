import Mathlib

/-!
# Names in descriptions of objects

The parser of object descriptions of `obusparser.py`.  It transforms every declared name into an
underscored one, and keeps what it has parsed in dictionaries under these names.  References are not
treated alike: the type of a field is transformed together with its prefix `enum:`, the default of
an enumeration is transformed like a name, and the property or the method that an event updates is
looked up as it is written.

References to declared names are resolved exactly if no enumeration has a name that begins with a
capital letter and no property or method has one with a capital letter anywhere
(`names_resolve_iff`).

A string is a list of characters; names consist of ASCII letters, digits and underscores.  An
attribute that is not there is `none`; an attribute that is read as a number is that number
(`NumAttr`).
-/

namespace Obus.Idl

/-- A string. -/
abbrev Str := List Char

/-- The method `lower` of strings, on ASCII. -/
def lower (s : Str) : Str := s.map Char.toLower

/-- The loop of `to_underscored`: the words so far, and the one that begins at `from_char_position`.
-/
def splitWords : List Str → Str → Str → List Str
  | words, word, [] => words ++ [lower word]
  | words, word, char :: string =>
    if char.isUpper ∧ word ≠ [] then splitWords (words ++ [lower word]) [char] string
    else splitWords words (word ++ [char]) string

/-- `to_underscored`. -/
def toUnderscored : Option Str → Option Str
  | none => none
  | some [] => none
  | some string => some (List.intercalate ['_'] (splitWords [] [] string))

/-! ## The description -/

/-- An attribute that is read by `int`. -/
inductive NumAttr where
  | absent
  | text
  | num (n : ℤ)

/-- A `label` of an enumeration. -/
structure LabelNode where
  name : Option Str
  value : NumAttr

/-- An `enum`. -/
structure EnumNode where
  name : Option Str
  default : Option Str
  labels : List LabelNode

/-- A `property`, or an `arg` of a method. -/
structure FieldNode where
  name : Option Str
  uid : NumAttr
  type : Option Str

/-- A `method`. -/
structure MethodNode where
  name : Option Str
  uid : NumAttr
  args : List FieldNode

/-- An `update` of an event. -/
structure UpdateNode where
  property : Option Str
  method : Option Str

/-- An `event`. -/
structure EventNode where
  name : Option Str
  uid : NumAttr
  updates : List UpdateNode

/-- An `object`. -/
structure ObjectNode where
  name : Option Str
  uid : NumAttr
  enums : List EnumNode
  properties : List FieldNode
  methods : List MethodNode
  events : List EventNode

/-! ## What is parsed -/

/-- `ObusType.Type`, without `INVALID`. -/
inductive BaseType where
  | int8 | uint8 | int16 | uint16 | int32 | uint32 | int64 | uint64
  | string | handle | enum | bool | float | double
  deriving DecidableEq

/-- `ObusEnumValue`. -/
structure EnumValue where
  name : Str
  value : ℤ

/-- `ObusEnum`. -/
structure ObusEnum where
  name : Str
  default : Str
  values : List EnumValue

/-- `ObusType`. -/
structure ObusType where
  isArray : Bool
  base : BaseType
  enum : Option ObusEnum

/-- `ObusProperty` and `ObusMethodArg`. -/
structure Field where
  name : Str
  uid : ℤ
  type : ObusType

/-- `ObusMethod`. -/
structure Method where
  name : Str
  uid : ℤ
  args : List Field

/-- `ObusEvent`. -/
structure Event where
  name : Str
  uid : ℤ
  properties : List Field
  methods : List Method

/-- `ObusObject`. -/
structure Object where
  name : Str
  uid : ℤ
  enums : List ObusEnum
  properties : List Field
  methods : List Method
  events : List Event

/-- The errors, with the strings that their messages name; `typeError` is that of `int(None)`. -/
inductive Err where
  | withoutType
  | missingArrayBaseType
  | invalidArrayBaseType (t : Str)
  | missingArrayEnumType
  | invalidBaseType (t : Str)
  | missingEnumType
  | enumNotDefined (t : Str)
  | labelWithoutName
  | labelWithoutValue
  | labelNotNumeric (name : Str)
  | labelUsed (name : Str)
  | enumWithoutName
  | enumWithoutLabels (name : Str)
  | defaultNotDefined (name : Str)
  | withoutName
  | invalidObjectName
  | invalidUid (name : Str)
  | nameUsed (name : Str)
  | uidUsed (name : Str)
  | updateBoth (name : Str)
  | updateEmpty (name : Str)
  | propertyNotFound (name : Str)
  | propertyAdded (name : Str)
  | methodNotFound (name : Str)
  | methodAdded (name : Str)
  | typeError

/-! ## The parser -/

/-- `enum`. -/
def enumWord : Str := ['e', 'n', 'u', 'm']

/-- `array`. -/
def arrayWord : Str := ['a', 'r', 'r', 'a', 'y']

/-- The dictionary `base`. -/
def base : List (Str × BaseType) :=
  [(['i', 'n', 't', '8'], .int8), (['u', 'i', 'n', 't', '8'], .uint8),
    (['i', 'n', 't', '1', '6'], .int16),
    (['u', 'i', 'n', 't', '1', '6'], .uint16), (['i', 'n', 't', '3', '2'], .int32),
    (['u', 'i', 'n', 't', '3', '2'], .uint32), (['i', 'n', 't', '6', '4'], .int64),
    (['u', 'i', 'n', 't', '6', '4'], .uint64), (['s', 't', 'r', 'i', 'n', 'g'], .string),
    (['h', 'a', 'n', 'd', 'l', 'e'], .handle), (enumWord, .enum), (['b', 'o', 'o', 'l'], .bool),
    (['f', 'l', 'o', 'a', 't'], .float), (['d', 'o', 'u', 'b', 'l', 'e'], .double)]

/-- What is in a dictionary under a name. -/
def named {α : Type} (name : α → Str) (dict : List α) (n : Str) : Option α :=
  dict.find? fun a => name a = n

/-- The base type and the enumeration of a type, whose name is in the words behind the base type. -/
def parseBase (enums : List ObusEnum) (isArray : Bool) (invalid : Str → Err) (missing : Err)
    (word : Str) (rest : List Str) : Except Err ObusType :=
  match base.lookup word with
  | none => .error (invalid word)
  | some .enum =>
    match rest with
    | [] => .error missing
    | t :: _ =>
      match named ObusEnum.name enums t with
      | none => .error (.enumNotDefined t)
      | some e => .ok ⟨isArray, .enum, some e⟩
  | some b => .ok ⟨isArray, b, none⟩

/-- `ObusType.__init__`. -/
def parseType (enums : List ObusEnum) (type : Option Str) : Except Err ObusType :=
  match toUnderscored type with
  | none => .error .withoutType
  | some t =>
    match t.splitOn ':' with
    | [] => .error .withoutType
    | word :: rest =>
      if word = arrayWord then
        match rest with
        | [] => .error .missingArrayBaseType
        | word :: rest => parseBase enums true .invalidArrayBaseType .missingArrayEnumType word rest
      else parseBase enums false .invalidBaseType .missingEnumType word rest

/-- `ObusEnumValue.__init__`. -/
def parseLabel (node : LabelNode) : Except Err EnumValue :=
  match toUnderscored node.name with
  | none => .error .labelWithoutName
  | some name =>
    match node.value with
    | .absent => .error .labelWithoutValue
    | .text => .error (.labelNotNumeric name)
    | .num n => .ok ⟨name, n⟩

/-- A name is in a dictionary already. -/
def checkName {α ε : Type} (name : α → Str) (used : Str → ε) (dict : List α) (a : α) : Option ε :=
  if (named name dict (name a)).isSome then some (used (name a)) else none

/-- A loop that parses nodes and adds what it has parsed to a dictionary, after a check. -/
def parseAll {α ν ε : Type} (parse : ν → Except ε α) (check : List α → α → Option ε) :
    List ν → List α → Except ε (List α)
  | [], dict => .ok dict
  | node :: nodes, dict =>
    match parse node with
    | .error e => .error e
    | .ok a =>
      match check dict a with
      | some e => .error e
      | none => parseAll parse check nodes (dict ++ [a])

/-- The loop over the labels. -/
def parseLabels (labels : List LabelNode) : Except Err (List EnumValue) :=
  parseAll parseLabel (checkName EnumValue.name .labelUsed) labels []

/-- `ObusEnum.__init__`.  The check of the default tests the name once more. -/
def parseEnum (node : EnumNode) : Except Err ObusEnum :=
  match toUnderscored node.name with
  | none => .error .enumWithoutName
  | some name =>
    match parseLabels node.labels with
    | .error e => .error e
    | .ok values =>
      if values = [] then .error (.enumWithoutLabels name)
      else
        match toUnderscored node.default with
        | none => .error (.defaultNotDefined name)
        | some default =>
          if (named EnumValue.name values default).isSome then .ok ⟨name, default, values⟩
          else .error (.defaultNotDefined name)

/-- The loop over the enumerations of an object. -/
def parseEnums (nodes : List EnumNode) : Except Err (List ObusEnum) :=
  parseAll parseEnum (checkName ObusEnum.name .nameUsed) nodes []

/-- The conversion of a uid, and its check. -/
def parseUid (name : Str) : NumAttr → Except Err ℤ
  | .absent => .error .typeError
  | .text => .error (.invalidUid name)
  | .num n => if n = 0 then .error (.invalidUid name) else .ok n

/-- `ObusProperty.__init__` and `ObusMethodArg.__init__`. -/
def parseField (enums : List ObusEnum) (node : FieldNode) : Except Err Field :=
  match toUnderscored node.name with
  | none => .error .withoutName
  | some name =>
    match parseUid name node.uid with
    | .error e => .error e
    | .ok uid => (parseType enums node.type).map fun type => ⟨name, uid, type⟩

/-- The name, and then the uid, of a property is used already. -/
def checkProperty (dict : List Field) (p : Field) : Option Err :=
  (checkName Field.name .nameUsed dict p).or
    (if dict.any fun q => q.uid = p.uid then some (.uidUsed p.name) else none)

/-- The loop over the properties of an object. -/
def parseProperties (enums : List ObusEnum) (nodes : List FieldNode) : Except Err (List Field) :=
  parseAll (parseField enums) checkProperty nodes []

/-- `ObusMethod.__init__`. -/
def parseMethod (enums : List ObusEnum) (node : MethodNode) : Except Err Method :=
  match toUnderscored node.name with
  | none => .error .withoutName
  | some name =>
    match parseUid name node.uid with
    | .error e => .error e
    | .ok uid =>
      (parseAll (parseField enums) (checkName Field.name .nameUsed) node.args []).map fun args =>
        ⟨name, uid, args⟩

/-- The name, and then the uid, of a method is used already. -/
def checkMethod (properties : List Field) (dict : List Method) (m : Method) : Option Err :=
  (checkName Method.name .nameUsed dict m).or
    (if (properties.any fun q => q.uid = m.uid) || dict.any fun q => q.uid = m.uid
      then some (.uidUsed m.name) else none)

/-- The loop over the methods of an object. -/
def parseMethods (enums : List ObusEnum) (properties : List Field) (nodes : List MethodNode) :
    Except Err (List Method) :=
  parseAll (parseMethod enums) (checkMethod properties) nodes []

/-- One update of an event: what is named is looked up as it is written. -/
def addUpdate (properties : List Field) (methods : List Method) (ev : Event) (node : UpdateNode) :
    Except Err Event :=
  match node.property.getD [], node.method.getD [] with
  | _ :: _, _ :: _ => .error (.updateBoth ev.name)
  | pname@(_ :: _), [] =>
    match named Field.name properties pname with
    | none => .error (.propertyNotFound pname)
    | some prop =>
      if (named Field.name ev.properties prop.name).isSome then .error (.propertyAdded pname)
      else .ok { ev with properties := ev.properties ++ [prop] }
  | [], mname@(_ :: _) =>
    match named Method.name methods mname with
    | none => .error (.methodNotFound mname)
    | some mtd =>
      if (named Method.name ev.methods mtd.name).isSome then .error (.methodAdded mname)
      else .ok { ev with methods := ev.methods ++ [mtd] }
  | [], [] => .error (.updateEmpty ev.name)

/-- The loop over the updates of an event. -/
def addUpdates (properties : List Field) (methods : List Method) : List UpdateNode → Event →
    Except Err Event
  | [], ev => .ok ev
  | node :: nodes, ev =>
    match addUpdate properties methods ev node with
    | .error e => .error e
    | .ok ev => addUpdates properties methods nodes ev

/-- `ObusEvent.__init__`. -/
def parseEvent (properties : List Field) (methods : List Method) (node : EventNode) :
    Except Err Event :=
  match toUnderscored node.name with
  | none => .error .withoutName
  | some name =>
    match parseUid name node.uid with
    | .error e => .error e
    | .ok uid => addUpdates properties methods node.updates ⟨name, uid, [], []⟩

/-- The name, and then the uid, of an event is used already. -/
def checkEvent (dict : List Event) (ev : Event) : Option Err :=
  (checkName Event.name .nameUsed dict ev).or
    (if dict.any fun q => q.uid = ev.uid then some (.uidUsed ev.name) else none)

/-- The loop over the events of an object. -/
def parseEvents (properties : List Field) (methods : List Method) (nodes : List EventNode) :
    Except Err (List Event) :=
  parseAll (parseEvent properties methods) checkEvent nodes []

/-- `ObusObject.__init__`. -/
def parseObject (node : ObjectNode) : Except Err Object :=
  match toUnderscored node.name with
  | none => .error .withoutName
  | some name =>
    if name = ['b', 'u', 's'] then .error .invalidObjectName
    else do
      let uid ← parseUid name node.uid
      let enums ← parseEnums node.enums
      let properties ← parseProperties enums node.properties
      let methods ← parseMethods enums properties node.methods
      let events ← parseEvents properties methods node.events
      return ⟨name, uid, enums, properties, methods, events⟩

/-! ## What should be resolved -/

/-- A character of a name. -/
def isNameChar (c : Char) : Bool := c.isAlphanum || c = '_'

/-- Names that are there consist of such characters. -/
def NameOk (name : Option Str) : Prop := ∀ n, name = some n → ∀ c ∈ n, isNameChar c

/-- The names of an object's enumerations with their labels, properties and methods. -/
structure ObjectNode.NamesOk (node : ObjectNode) : Prop where
  enums : ∀ n ∈ node.enums, NameOk n.name
  labels : ∀ n ∈ node.enums, ∀ l ∈ n.labels, NameOk l.name
  properties : ∀ n ∈ node.properties, NameOk n.name
  methods : ∀ n ∈ node.methods, NameOk n.name

/-- `enum:` or `array:enum:` before a name. -/
def enumRef (isArray : Bool) (n : Str) : Str :=
  (if isArray then arrayWord ++ [':'] else []) ++ enumWord ++ ':' :: n

/-- References to declared names are resolved: the type of a field that names an enumeration is
accepted and bound to it, a default that names a label is accepted, and an update of an event that
names a property or a method which is not updated yet is accepted and bound to it. -/
structure ObjectNode.NamesResolve (node : ObjectNode) : Prop where
  types : ∀ enums, parseEnums node.enums = .ok enums → ∀ n ∈ node.enums, ∀ name,
  n.name = some name → ∀ isArray,
    ∃ e, parseEnum n = .ok e ∧ e ∈ enums ∧ parseType enums (some (enumRef isArray name)) =
      .ok ⟨isArray, .enum, some e⟩
  defaults : ∀ n ∈ node.enums, ∀ name, toUnderscored n.name = some name →
  ∀ values, parseLabels n.labels = .ok values →
    ∀ l ∈ n.labels, n.default = l.name → ∃ v ∈ values, parseLabel l = .ok v ∧
    parseEnum n = .ok ⟨name, v.name, values⟩
  properties : ∀ enums, parseEnums node.enums = .ok enums →
  ∀ props, parseProperties enums node.properties = .ok props →
    ∀ n ∈ node.properties, ∀ name, n.name = some name → ∃ p, parseField enums n = .ok p ∧
    p ∈ props ∧
      ∀ (methods : List Method) (ev : Event), named Field.name ev.properties p.name = none →
        addUpdate props methods ev ⟨some name, none⟩ =
          .ok { ev with properties := ev.properties ++ [p] }
  methods : ∀ enums, parseEnums node.enums = .ok enums →
  ∀ props, parseProperties enums node.properties = .ok props →
    ∀ methods, parseMethods enums props node.methods = .ok methods →
      ∀ n ∈ node.methods, ∀ name, n.name = some name → ∃ m, parseMethod enums n = .ok m ∧
      m ∈ methods ∧
        ∀ ev : Event, named Method.name ev.methods m.name = none →
          addUpdate props methods ev ⟨none, some name⟩ =
            .ok { ev with methods := ev.methods ++ [m] }

/-- A name begins with a capital letter. -/
def BeginsUpper (name : Option Str) : Prop := ∃ c s, name = some (c :: s) ∧ c.isUpper

/-- A name has a capital letter. -/
def HasUpper (name : Option Str) : Prop := ∃ s c, name = some s ∧ c ∈ s ∧ c.isUpper

/-- No name has a capital letter where it gets in the way of a reference: no enumeration at the
beginning, no property and no method anywhere.  Names matter only as far as the description is
accepted up to them. -/
structure ObjectNode.NamesPlain (node : ObjectNode) : Prop where
  enums : (∃ enums, parseEnums node.enums = .ok enums) → ∀ n ∈ node.enums, ¬BeginsUpper n.name
  properties : ∀ enums, parseEnums node.enums = .ok enums →
  (∃ props, parseProperties enums node.properties = .ok props) →
    ∀ n ∈ node.properties, ¬HasUpper n.name
  methods : ∀ enums, parseEnums node.enums = .ok enums →
  ∀ props, parseProperties enums node.properties = .ok props →
    (∃ methods, parseMethods enums props node.methods = .ok methods) →
    ∀ n ∈ node.methods, ¬HasUpper n.name

/-! ## The transformation of names -/

lemma toLower_of_not_upper {c : Char} (h : ¬c.isUpper) : c.toLower = c := by
  have hno : ¬(c.val ≥ 'A'.val ∧ c.val ≤ 'Z'.val) := fun hc => h (by simpa [Char.isUpper] using hc)
  rw [Char.toLower, dif_neg hno]

lemma toLower_not_upper (c : Char) : c.toLower.isUpper = false := by
  by_cases hc : c.val ≥ 'A'.val ∧ c.val ≤ 'Z'.val
  · have hval : c.toLower.val = c.val + ('a'.val - 'A'.val) := by rw [Char.toLower, dif_pos hc]
    rw [Char.isUpper, hval]
    refine decide_eq_false fun hupper => ?_
    have hle := UInt32.le_iff_toNat_le.mp hupper.2
    rw [UInt32.toNat_add] at hle
    have hlow := UInt32.le_iff_toNat_le.mp hc.1
    have hhigh := UInt32.le_iff_toNat_le.mp hc.2
    have hA : 'A'.val.toNat = 65 := rfl
    have hZ : 'Z'.val.toNat = 90 := rfl
    have hshift : ('a'.val - 'A'.val).toNat = 32 := rfl
    omega
  · rw [Char.toLower, dif_neg hc, ← Bool.not_eq_true]
    exact fun hupper => hc (by simpa [Char.isUpper] using hupper)

/-- What becomes of a character that is not the first one. -/
def hump (c : Char) : Str := if c.isUpper then ['_', c.toLower] else [c.toLower]

/-- The last word is behind the others and a separator. -/
lemma exists_intercalate (sep : Str) (words : List Str) :
    ∃ p, ∀ word, List.intercalate sep (words ++ [word]) = p ++ word := by
  induction words with
  | nil => exact ⟨[], fun word => List.intercalate_singleton⟩
  | cons w words ih =>
    obtain ⟨p, hp⟩ := ih
    refine ⟨w ++ sep ++ p, fun word => ?_⟩
    rw [List.cons_append, List.intercalate_cons_of_ne_nil
      (List.append_ne_nil_of_right_ne_nil _ (List.cons_ne_nil _ _)), hp,
      ← List.append_assoc]

lemma intercalate_concat (sep : Str) (words : List Str) (v w : Str) :
    List.intercalate sep (words ++ [v] ++ [w]) = List.intercalate sep (words ++ [v]) ++
      sep ++ w := by
  induction words with
  | nil =>
    rw [List.nil_append, List.cons_append, List.nil_append, List.intercalate_cons_cons,
      List.intercalate_singleton,
      List.intercalate_singleton]
  | cons u words ih =>
    have hne : ∀ l : List Str, words ++ [v] ++ l ≠ [] := fun l => by simp
    have hne' : words ++ [v] ≠ [] := by simp
    rw [List.cons_append, List.cons_append, List.intercalate_cons_of_ne_nil (hne _), ih,
      List.intercalate_cons_of_ne_nil hne']
    simp only [List.append_assoc]

/-- The words of a string, joined, once a word has begun. -/
lemma intercalate_splitWords (words : List Str) {word : Str} (hword : word ≠ []) (s : Str) :
    List.intercalate ['_'] (splitWords words word s) = List.intercalate ['_']
      (words ++ [lower word]) ++ s.flatMap hump := by
  induction s generalizing words word with
  | nil => rw [splitWords, List.flatMap_nil, List.append_nil]
  | cons c s ih =>
    rw [splitWords, List.flatMap_cons, hump]
    by_cases hc : c.isUpper
    · rw [if_pos ⟨hc, hword⟩, if_pos hc, ih _ (List.cons_ne_nil c []), intercalate_concat,
        List.append_assoc,
        List.append_assoc]
      rfl
    · obtain ⟨p, hp⟩ := exists_intercalate ['_'] words
      have hlower : lower (word ++ [c]) = lower word ++ [c.toLower] := List.map_append
      rw [if_neg fun h => hc h.1, if_neg hc, ih _ (List.append_ne_nil_of_left_ne_nil hword [c]), hp,
        hp, hlower,
        List.append_assoc, List.append_assoc, List.append_assoc]

/-- The first character becomes a small one, a capital letter elsewhere gets an underscore. -/
lemma toUnderscored_cons (c : Char) (s : Str) :
    toUnderscored (some (c :: s)) = some (c.toLower :: s.flatMap hump) := by
  have hfirst : splitWords [] [] (c :: s) = splitWords [] [c] s := by
    rw [splitWords, if_neg fun h => h.2 rfl]
    rfl
  have hjoin : toUnderscored (some (c :: s)) =
      some (List.intercalate ['_'] (splitWords [] [] (c :: s))) := rfl
  rw [hjoin, hfirst, intercalate_splitWords [] (List.cons_ne_nil c []), List.nil_append,
    List.intercalate_singleton]
  rfl

lemma toUnderscored_eq_some {name : Option Str} {n : Str} (h : toUnderscored name = some n) :
    ∃ c s, name = some (c :: s) ∧ n = c.toLower :: s.flatMap hump := by
  match name, h with
  | some (c :: s), h =>
    rw [toUnderscored_cons] at h
    exact ⟨c, s, rfl, (Option.some.inj h).symm⟩

lemma hump_not_upper {c d : Char} (hd : d ∈ hump c) : d.isUpper = false := by
  unfold hump at hd
  split at hd
  · rcases List.mem_cons.mp hd with rfl | hd
    · rfl
    · rw [List.mem_singleton.mp hd, toLower_not_upper]
  · rw [List.mem_singleton.mp hd, toLower_not_upper]

/-- No capital letter is left. -/
lemma not_upper_of_mem_toUnderscored {name : Option Str} {n : Str} (h : toUnderscored name = some n)
    {d : Char} (hd : d ∈ n) : d.isUpper = false := by
  obtain ⟨c, s, -, rfl⟩ := toUnderscored_eq_some h
  rcases List.mem_cons.mp hd with rfl | hd
  · exact toLower_not_upper c
  · obtain ⟨x, -, hx⟩ := List.mem_flatMap.mp hd
    exact hump_not_upper hx

lemma flatMap_hump_of_plain {s : Str} (h : ∀ c ∈ s, ¬c.isUpper) : s.flatMap hump = s := by
  induction s with
  | nil => rfl
  | cons c s ih =>
    have hc := h c List.mem_cons_self
    rw [List.flatMap_cons, ih fun d hd => h d (List.mem_cons_of_mem c hd), hump, if_neg hc,
      toLower_of_not_upper hc]
    rfl

/-- A name without capital letters stays as it is. -/
lemma toUnderscored_of_plain {s : Str} (hne : s ≠ []) (h : ∀ c ∈ s, ¬c.isUpper) :
    toUnderscored (some s) = some s := by
  obtain ⟨c, s, rfl⟩ := List.exists_cons_of_ne_nil hne
  rw [toUnderscored_cons, toLower_of_not_upper (h c List.mem_cons_self),
    flatMap_hump_of_plain fun d hd => h d (List.mem_cons_of_mem c hd)]

/-! ## Dictionaries -/

section Dictionaries

variable {α ν ε : Type} {name : α → Str} {dict r : List α} {a : α}

/-- An entry is found under its name. -/
lemma named_of_mem (hnodup : (dict.map name).Nodup) (ha : a ∈ dict) :
    named name dict (name a) = some a := by
  cases hfind : named name dict (name a) with
  | none =>
    have hno := List.find?_eq_none.mp hfind a ha
    exact absurd (decide_eq_true rfl) hno
  | some b =>
    have hb := List.mem_of_find?_eq_some hfind
    have hname : name b = name a := by simpa using List.find?_some hfind
    rw [List.inj_on_of_nodup_map hnodup hb ha hname]

lemma name_of_named {n : Str} (h : named name dict n = some a) : a ∈ dict ∧ name a = n :=
  ⟨List.mem_of_find?_eq_some h, by simpa using List.find?_some h⟩

/-- A check that refuses names which are used. -/
def ChecksNames (name : α → Str) (check : List α → α → Option ε) : Prop :=
  ∀ dict a, check dict a = none → named name dict (name a) = none

lemma checksNames_checkName (used : Str → ε) : ChecksNames name (checkName name used) := by
  intro dict a h
  rw [checkName] at h
  by_contra hne
  rw [if_pos (Option.isSome_iff_ne_none.mpr hne)] at h
  cases h

lemma checksNames_or {check : List α → α → Option ε} (used : Str → ε) :
    ChecksNames name fun dict a => (checkName name used dict a).or (check dict a) := fun dict a h =>
  checksNames_checkName used dict a (Option.or_eq_none_iff.mp h).1

section Loops

variable {parse : ν → Except ε α} {check : List α → α → Option ε} {node : ν} {nodes : List ν}

/-- The first node is parsed, and its entry passes the check. -/
lemma parseAll_cons (h : parseAll parse check (node :: nodes) dict = .ok r) :
    ∃ a, parse node = .ok a ∧ check dict a = none ∧ parseAll parse check nodes (dict ++ [a]) =
      .ok r := by
  rw [parseAll] at h
  cases hparse : parse node with
  | error e =>
    rw [hparse] at h
    cases h
  | ok a =>
    simp only [hparse] at h
    cases hcheck : check dict a with
    | some e =>
      rw [hcheck] at h
      cases h
    | none =>
      simp only [hcheck] at h
      exact ⟨a, rfl, hcheck, h⟩

/-- What a loop keeps while it adds entries to a dictionary. -/
lemma parseAll_invariant {I : List α → Prop}
    (hstep : ∀ dict node a, I dict → parse node = .ok a → check dict a = none → I (dict ++ [a]))
    (hdict : I dict) (h : parseAll parse check nodes dict = .ok r) : I r := by
  induction nodes generalizing dict with
  | nil =>
    cases h
    exact hdict
  | cons node nodes ih =>
    obtain ⟨a, hparse, hcheck, hrest⟩ := parseAll_cons h
    exact ih (hstep dict node a hdict hparse hcheck) hrest

/-- The entries stay, each node has given one of them, and each one is from a node. -/
lemma parseAll_mem (h : parseAll parse check nodes dict = .ok r) :
    (∀ a ∈ dict, a ∈ r) ∧ (∀ node ∈ nodes, ∃ a ∈ r, parse node = .ok a) ∧
      ∀ a ∈ r, a ∈ dict ∨ ∃ node ∈ nodes, parse node = .ok a := by
  induction nodes generalizing dict with
  | nil =>
    cases h
    exact ⟨fun _ ha => ha, fun _ hnode => absurd hnode List.not_mem_nil, fun _ ha => Or.inl ha⟩
  | cons node nodes ih =>
    obtain ⟨a, hparse, -, hrest⟩ := parseAll_cons h
    obtain ⟨hkept, hnodes, hsource⟩ := ih hrest
    refine ⟨fun b hb => hkept b (List.mem_append_left _ hb), fun node' hnode' => ?_, fun b hb => ?_⟩
    · rcases List.mem_cons.mp hnode' with rfl | hnode'
      · exact ⟨a, hkept a (List.mem_append_right _ (List.mem_singleton_self a)), hparse⟩
      · exact hnodes node' hnode'
    · rcases hsource b hb with hb | ⟨node', hnode', hb⟩
      · rcases List.mem_append.mp hb with hb | hb
        · exact Or.inl hb
        · exact Or.inr ⟨node, List.mem_cons_self, by rw [List.mem_singleton.mp hb, hparse]⟩
      · exact Or.inr ⟨node', List.mem_cons_of_mem node hnode', hb⟩

/-- What a loop has parsed: the entries have different names, and each node has given one of them.
-/
lemma parseAll_ok (hcheck : ChecksNames name check) (hdict : (dict.map name).Nodup)
    (h : parseAll parse check nodes dict = .ok r) : (r.map name).Nodup ∧ (∀ a ∈ dict, a ∈ r) ∧
      (∀ node ∈ nodes, ∃ a ∈ r, parse node = .ok a) ∧ ∀ a ∈ r, a ∈ dict ∨
      ∃ node ∈ nodes, parse node = .ok a := by
  have hnodup : (r.map name).Nodup := by
    refine parseAll_invariant (I := fun dict => (dict.map name).Nodup)
      (fun dict node a hdict _ hchecked => ?_) hdict h
    have hnew := List.find?_eq_none.mp (hcheck dict a hchecked)
    rw [List.map_append, List.nodup_append]
    refine ⟨hdict, List.nodup_singleton _, fun n hn n' hn' heq => ?_⟩
    obtain ⟨b, hb, rfl⟩ := List.mem_map.mp hn
    rw [List.mem_singleton.mp hn'] at heq
    exact hnew b hb (decide_eq_true heq)
  exact ⟨hnodup, parseAll_mem h⟩

end Loops

end Dictionaries

/-- The names of what is parsed. -/
lemma parseLabel_name {node : LabelNode} {v : EnumValue} (h : parseLabel node = .ok v) :
    toUnderscored node.name = some v.name := by
  unfold parseLabel at h
  cases hname : toUnderscored node.name with
  | none => simp only [hname, reduceCtorEq] at h
  | some name =>
    cases hvalue : node.value with
    | absent => simp only [hname, hvalue, reduceCtorEq] at h
    | text => simp only [hname, hvalue, reduceCtorEq] at h
    | num n =>
      simp only [hname, hvalue, Except.ok.injEq] at h
      rw [← h]

lemma parseEnum_name {node : EnumNode} {e : ObusEnum} (h : parseEnum node = .ok e) :
    toUnderscored node.name = some e.name := by
  unfold parseEnum at h
  cases hname : toUnderscored node.name with
  | none => simp only [hname, reduceCtorEq] at h
  | some name =>
    simp only [hname] at h
    split at h
    · cases h
    · split at h
      · cases h
      · split at h
        · cases h
        · split at h
          · cases h
            rfl
          · cases h

lemma parseField_name {enums : List ObusEnum} {node : FieldNode} {p : Field}
    (h : parseField enums node = .ok p) : toUnderscored node.name = some p.name := by
  unfold parseField at h
  cases hname : toUnderscored node.name with
  | none => simp only [hname, reduceCtorEq] at h
  | some name =>
    simp only [hname] at h
    split at h
    · cases h
    · cases htype : parseType enums node.type with
      | error e =>
        rw [htype] at h
        cases h
      | ok type =>
        rw [htype] at h
        cases h
        rfl

lemma parseMethod_name {enums : List ObusEnum} {node : MethodNode} {m : Method}
    (h : parseMethod enums node = .ok m) : toUnderscored node.name = some m.name := by
  unfold parseMethod at h
  cases hname : toUnderscored node.name with
  | none => simp only [hname, reduceCtorEq] at h
  | some name =>
    simp only [hname] at h
    split at h
    · cases h
    · cases hargs : parseAll (parseField enums) (checkName Field.name .nameUsed) node.args [] with
      | error e =>
        rw [hargs] at h
        cases h
      | ok args =>
        rw [hargs] at h
        cases h
        rfl

/-! ## References to enumerations -/

/-- Where a name follows `enum:`, its first character is treated like the others. -/
lemma toUnderscored_enumRef (isArray : Bool) (name : Str) :
    toUnderscored (some (enumRef isArray name)) = some (enumRef isArray (name.flatMap hump)) := by
  cases isArray with
  | false =>
    have hcons : enumRef false name = 'e' :: ['n', 'u', 'm', ':'] ++ name := rfl
    rw [hcons, List.cons_append, toUnderscored_cons, List.flatMap_append]
    rfl
  | true =>
    have hcons : enumRef true name = 'a' :: ['r', 'r', 'a', 'y', ':', 'e', 'n', 'u', 'm', ':'] ++
        name := rfl
    rw [hcons, List.cons_append, toUnderscored_cons, List.flatMap_append]
    rfl

lemma colon_not_mem_hump {name : Str} (h : ∀ c ∈ name, isNameChar c) : ':' ∉ name.flatMap hump := by
  intro hmem
  obtain ⟨c, hc, hcolon⟩ := List.mem_flatMap.mp hmem
  have hlower : c.toLower ≠ ':' := by
    intro heq
    by_cases hupper : c.isUpper
    · have hrange : c.val ≥ 'A'.val ∧ c.val ≤ 'Z'.val := by simpa [Char.isUpper] using hupper
      have hval : c.toLower.val = c.val + ('a'.val - 'A'.val) := by
        rw [Char.toLower, dif_pos hrange]
      have hlow := UInt32.le_iff_toNat_le.mp hrange.1
      have hhigh := UInt32.le_iff_toNat_le.mp hrange.2
      have hnat := congrArg (fun d : Char => d.val.toNat) heq
      simp only [hval, UInt32.toNat_add] at hnat
      have hA : 'A'.val.toNat = 65 := rfl
      have hZ : 'Z'.val.toNat = 90 := rfl
      have hshift : ('a'.val - 'A'.val).toNat = 32 := rfl
      have hcolon : ':'.val.toNat = 58 := rfl
      omega
    · rw [toLower_of_not_upper hupper] at heq
      have hchar := h c hc
      rw [heq] at hchar
      exact absurd hchar (by decide)
  unfold hump at hcolon
  split at hcolon
  · rcases List.mem_cons.mp hcolon with heq | hcolon
    · cases heq
    · exact hlower (List.mem_singleton.mp hcolon).symm
  · exact hlower (List.mem_singleton.mp hcolon).symm

/-- The enumeration of a reference is looked up under its name with an underscore before every
capital letter. -/
lemma parseType_enumRef (enums : List ObusEnum) (isArray : Bool) {name : Str}
    (h : ∀ c ∈ name, isNameChar c) : parseType enums (some (enumRef isArray name)) =
      match named ObusEnum.name enums (name.flatMap hump) with
      | none => .error (.enumNotDefined (name.flatMap hump))
      | some e => .ok ⟨isArray, .enum, some e⟩ := by
  have hcolon := colon_not_mem_hump h
  have hbase : base.lookup enumWord = some .enum := by decide
  rw [parseType, toUnderscored_enumRef]
  cases isArray with
  | false =>
    have hsplit : (enumRef false (name.flatMap hump)).splitOn ':' =
        [enumWord, name.flatMap hump] := by
      have hjoin : enumRef false (name.flatMap hump) =
          [':'].intercalate [enumWord, name.flatMap hump] := by
        rw [List.intercalate_cons_cons, List.intercalate_singleton, List.append_assoc]
        rfl
      rw [hjoin, List.splitOn_intercalate]
      · intro l hl
        rcases List.mem_cons.mp hl with rfl | hl
        · decide
        · rwa [List.mem_singleton.mp hl]
      · exact List.cons_ne_nil _ _
    simp only [hsplit, if_neg (by decide : enumWord ≠ arrayWord), parseBase, hbase]
  | true =>
    have hsplit : (enumRef true (name.flatMap hump)).splitOn ':' =
        [arrayWord, enumWord, name.flatMap hump] := by
      have hjoin : enumRef true (name.flatMap hump) =
          [':'].intercalate [arrayWord, enumWord, name.flatMap hump] := by
        rw [List.intercalate_cons_cons, List.intercalate_cons_cons, List.intercalate_singleton,
          List.append_assoc,
          List.append_assoc]
        rfl
      rw [hjoin, List.splitOn_intercalate]
      · intro l hl
        rcases List.mem_cons.mp hl with rfl | hl
        · decide
        · rcases List.mem_cons.mp hl with rfl | hl
          · decide
          · rwa [List.mem_singleton.mp hl]
      · exact List.cons_ne_nil _ _
    simp only [hsplit, if_true, parseBase, hbase]

/-- A reference to an enumeration is bound to it exactly if its name does not begin with a capital
letter. -/
lemma parseType_bound_iff {enums : List ObusEnum} (hnodup : (enums.map ObusEnum.name).Nodup)
    (isArray : Bool) {e : ObusEnum}
    (he : e ∈ enums) {name : Str} (hname : toUnderscored (some name) = some e.name)
    (h : ∀ c ∈ name, isNameChar c) :
    parseType enums (some (enumRef isArray name)) = .ok ⟨isArray, .enum, some e⟩ ↔
    ¬BeginsUpper (some name) := by
  obtain ⟨c, s, heq, hkey⟩ := toUnderscored_eq_some hname
  cases heq
  rw [parseType_enumRef enums isArray h, List.flatMap_cons, hump]
  by_cases hc : c.isUpper
  · rw [if_pos hc]
    refine iff_of_false (fun hbound => ?_) fun hno => hno ⟨c, s, rfl, hc⟩
    cases hfind : named ObusEnum.name enums (['_', c.toLower] ++ s.flatMap hump) with
    | none =>
      rw [hfind] at hbound
      cases hbound
    | some e' =>
      rw [hfind] at hbound
      cases hbound
      have hlength := congrArg List.length ((name_of_named hfind).2.symm.trans hkey)
      simp only [List.length_append, List.length_cons, List.length_nil] at hlength
      omega
  · rw [if_neg hc, List.singleton_append, ← hkey, named_of_mem hnodup he]
    refine iff_of_true rfl ?_
    rintro ⟨c', s', heq, hupper⟩
    cases heq
    exact hc hupper

/-! ## References to properties and methods -/

/-- A name is the key of its entry exactly if it has no capital letter. -/
lemma key_eq_iff {name key : Str} (hkey : toUnderscored (some name) = some key) :
    key = name ↔ ¬HasUpper (some name) := by
  constructor
  · rintro rfl ⟨s, c, heq, hc, hupper⟩
    cases heq
    rw [not_upper_of_mem_toUnderscored hkey hc] at hupper
    cases hupper
  · intro hno
    have hne : name ≠ [] := by
      rintro rfl
      cases hkey
    have hplain := toUnderscored_of_plain hne fun c hc hupper => hno ⟨name, c, rfl, hc, hupper⟩
    rw [hplain] at hkey
    exact (Option.some.inj hkey).symm

/-- A name with a capital letter is not found. -/
lemma named_of_hasUpper {α : Type} {key : α → Str} {dict : List α}
    (hdict : ∀ a ∈ dict, ∃ name, toUnderscored name = some (key a))
    {name : Str} (hname : HasUpper (some name)) : named key dict name = none := by
  refine Option.eq_none_iff_forall_ne_some.mpr fun a ha => ?_
  obtain ⟨hmem, rfl⟩ := name_of_named ha
  obtain ⟨n, hn⟩ := hdict a hmem
  obtain ⟨s, c, heq, hc, hupper⟩ := hname
  cases heq
  rw [not_upper_of_mem_toUnderscored hn hc] at hupper
  cases hupper

/-- A property that an event updates is found by its name exactly if that has no capital letter. -/
lemma property_bound_iff {props : List Field} (hnodup : (props.map Field.name).Nodup)
    (hprops : ∀ p ∈ props, ∃ name, toUnderscored name = some p.name) {p : Field} (hp : p ∈ props)
    {name : Str} (hname : toUnderscored (some name) = some p.name) :
    (∀ (methods : List Method) (ev : Event), named Field.name ev.properties p.name = none →
      addUpdate props methods ev ⟨some name, none⟩ =
        .ok { ev with properties := ev.properties ++ [p] }) ↔
      ¬HasUpper (some name) := by
  obtain ⟨c, s, heq, -⟩ := toUnderscored_eq_some hname
  cases heq
  constructor
  · intro hbound hupper
    have hempty := hbound [] ⟨[], 0, [], []⟩ rfl
    simp only [addUpdate, Option.getD_some, Option.getD_none, named_of_hasUpper hprops hupper,
      reduceCtorEq] at hempty
  · intro hno methods ev hfree
    have hkey := (key_eq_iff hname).mpr hno
    have hfound : named Field.name props (c :: s) = some p := by
      rw [← hkey]
      exact named_of_mem hnodup hp
    simp only [addUpdate, Option.getD_some, Option.getD_none, hfound, hfree, Option.isSome_none,
      Bool.false_eq_true, if_false]

/-- The same for a method. -/
lemma method_bound_iff {props : List Field} {methods : List Method}
    (hnodup : (methods.map Method.name).Nodup)
    (hmethods : ∀ m ∈ methods, ∃ name, toUnderscored name = some m.name) {m : Method}
    (hm : m ∈ methods) {name : Str} (hname : toUnderscored (some name) = some m.name) :
    (∀ ev : Event, named Method.name ev.methods m.name = none →
      addUpdate props methods ev ⟨none, some name⟩ = .ok { ev with methods := ev.methods ++ [m] }) ↔
      ¬HasUpper (some name) := by
  obtain ⟨c, s, heq, -⟩ := toUnderscored_eq_some hname
  cases heq
  constructor
  · intro hbound hupper
    have hempty := hbound ⟨[], 0, [], []⟩ rfl
    simp only [addUpdate, Option.getD_some, Option.getD_none, named_of_hasUpper hmethods hupper,
      reduceCtorEq] at hempty
  · intro hno ev hfree
    have hkey := (key_eq_iff hname).mpr hno
    have hfound : named Method.name methods (c :: s) = some m := by
      rw [← hkey]
      exact named_of_mem hnodup hm
    simp only [addUpdate, Option.getD_some, Option.getD_none, hfound, hfree, Option.isSome_none,
      Bool.false_eq_true, if_false]

/-! ## The parts of a description -/

/-- The enumerations of an object: every one is parsed, and is in the dictionary under a name of its
own. -/
lemma parseEnums_ok {nodes : List EnumNode} {enums : List ObusEnum}
    (h : parseEnums nodes = .ok enums) :
    (enums.map ObusEnum.name).Nodup ∧ ∀ n ∈ nodes, ∃ e ∈ enums, parseEnum n = .ok e := by
  have hnil : (([] : List ObusEnum).map ObusEnum.name).Nodup := List.nodup_nil
  have hall := parseAll_ok (checksNames_checkName Err.nameUsed) hnil h
  exact ⟨hall.1, hall.2.2.1⟩

/-- The labels of an enumeration. -/
lemma parseLabels_ok {nodes : List LabelNode} {values : List EnumValue}
    (h : parseLabels nodes = .ok values) :
    (values.map EnumValue.name).Nodup ∧ ∀ l ∈ nodes, ∃ v ∈ values, parseLabel l = .ok v := by
  have hnil : (([] : List EnumValue).map EnumValue.name).Nodup := List.nodup_nil
  have hall := parseAll_ok (checksNames_checkName Err.labelUsed) hnil h
  exact ⟨hall.1, hall.2.2.1⟩

/-- The properties of an object. -/
lemma parseProperties_ok {enums : List ObusEnum} {nodes : List FieldNode} {props : List Field}
    (h : parseProperties enums nodes = .ok props) :
    (props.map Field.name).Nodup ∧ (∀ n ∈ nodes, ∃ p ∈ props, parseField enums n = .ok p) ∧
      ∀ p ∈ props, ∃ name, toUnderscored name = some p.name := by
  have hcheck : ChecksNames Field.name checkProperty := checksNames_or Err.nameUsed
  have hnil : (([] : List Field).map Field.name).Nodup := List.nodup_nil
  have hall := parseAll_ok hcheck hnil h
  refine ⟨hall.1, hall.2.2.1, fun p hp => ?_⟩
  rcases hall.2.2.2 p hp with hno | ⟨n, -, hn⟩
  · exact absurd hno List.not_mem_nil
  · exact ⟨n.name, parseField_name hn⟩

/-- The methods of an object. -/
lemma parseMethods_ok {enums : List ObusEnum} {props : List Field} {nodes : List MethodNode}
    {methods : List Method} (h : parseMethods enums props nodes = .ok methods) :
    (methods.map Method.name).Nodup ∧ (∀ n ∈ nodes, ∃ m ∈ methods, parseMethod enums n = .ok m) ∧
      ∀ m ∈ methods, ∃ name, toUnderscored name = some m.name := by
  have hcheck : ChecksNames Method.name (checkMethod props) := checksNames_or Err.nameUsed
  have hnil : (([] : List Method).map Method.name).Nodup := List.nodup_nil
  have hall := parseAll_ok hcheck hnil h
  refine ⟨hall.1, hall.2.2.1, fun m hm => ?_⟩
  rcases hall.2.2.2 m hm with hno | ⟨n, -, hn⟩
  · exact absurd hno List.not_mem_nil
  · exact ⟨n.name, parseMethod_name hn⟩

/-- A default that names a label is accepted, whatever the names are. -/
lemma parseEnum_default {n : EnumNode} {name : Str} (hname : toUnderscored n.name = some name)
    {values : List EnumValue}
    (hvalues : parseLabels n.labels = .ok values) {l : LabelNode} (hl : l ∈ n.labels)
    (hdefault : n.default = l.name) :
    ∃ v ∈ values, parseLabel l = .ok v ∧ parseEnum n = .ok ⟨name, v.name, values⟩ := by
  obtain ⟨hnodup, hlabels⟩ := parseLabels_ok hvalues
  obtain ⟨v, hv, hparsed⟩ := hlabels l hl
  have hkey : toUnderscored n.default = some v.name := by rw [hdefault, parseLabel_name hparsed]
  have hfound : (named EnumValue.name values v.name).isSome := by
    rw [named_of_mem hnodup hv, Option.isSome_some]
  refine ⟨v, hv, hparsed, ?_⟩
  simp only [parseEnum, hname, hvalues, if_neg (List.ne_nil_of_mem hv), hkey, hfound, if_true]

/-- References to declared names are resolved exactly if no capital letter gets in the way. -/
theorem names_resolve_iff {node : ObjectNode} (h : node.NamesOk) :
    node.NamesResolve ↔ node.NamesPlain := by
  constructor
  · intro hresolve
    refine ⟨?_, ?_, ?_⟩
    · rintro ⟨enums, henums⟩ n hn hupper
      have hname : ∃ name, n.name = some name := by
        obtain ⟨c, s, hname, -⟩ := hupper
        exact ⟨c :: s, hname⟩
      obtain ⟨name, hname⟩ := hname
      obtain ⟨e, hparsed, he, hbound⟩ := hresolve.types enums henums n hn name hname false
      have hkey := parseEnum_name hparsed
      rw [hname] at hkey hupper
      exact (parseType_bound_iff (parseEnums_ok henums).1 false he hkey
        (h.enums n hn name hname)).mp hbound hupper
    · rintro enums henums ⟨props, hprops⟩ n hn hupper
      obtain ⟨name, c, hname, -⟩ := id hupper
      obtain ⟨p, hparsed, hp, hbound⟩ :=
        hresolve.properties enums henums props hprops n hn name hname
      obtain ⟨hnodup, -, hkeys⟩ := parseProperties_ok hprops
      have hkey := parseField_name hparsed
      rw [hname] at hkey hupper
      exact (property_bound_iff hnodup hkeys hp hkey).mp hbound hupper
    · rintro enums henums props hprops ⟨methods, hmethods⟩ n hn hupper
      obtain ⟨name, c, hname, -⟩ := id hupper
      obtain ⟨m, hparsed, hm, hbound⟩ :=
        hresolve.methods enums henums props hprops methods hmethods n hn name hname
      obtain ⟨hnodup, -, hkeys⟩ := parseMethods_ok hmethods
      have hkey := parseMethod_name hparsed
      rw [hname] at hkey hupper
      exact (method_bound_iff hnodup hkeys hm hkey).mp hbound hupper
  · intro hplain
    refine ⟨?_, ?_, ?_, ?_⟩
    · intro enums henums n hn name hname isArray
      obtain ⟨hnodup, hparse⟩ := parseEnums_ok henums
      obtain ⟨e, he, hparsed⟩ := hparse n hn
      have hkey := parseEnum_name hparsed
      have hno := hplain.enums ⟨enums, henums⟩ n hn
      rw [hname] at hkey hno
      exact ⟨e, hparsed, he, (parseType_bound_iff hnodup isArray he hkey
        (h.enums n hn name hname)).mpr hno⟩
    · intro n hn name hname values hvalues l hl hdefault
      exact parseEnum_default hname hvalues hl hdefault
    · intro enums henums props hprops n hn name hname
      obtain ⟨hnodup, hparse, hkeys⟩ := parseProperties_ok hprops
      obtain ⟨p, hp, hparsed⟩ := hparse n hn
      have hkey := parseField_name hparsed
      have hno := hplain.properties enums henums ⟨props, hprops⟩ n hn
      rw [hname] at hkey hno
      exact ⟨p, hparsed, hp, (property_bound_iff hnodup hkeys hp hkey).mpr hno⟩
    · intro enums henums props hprops methods hmethods n hn name hname
      obtain ⟨hnodup, hparse, hkeys⟩ := parseMethods_ok hmethods
      obtain ⟨m, hm, hparsed⟩ := hparse n hn
      have hkey := parseMethod_name hparsed
      have hno := hplain.methods enums henums props hprops ⟨methods, hmethods⟩ n hn
      rw [hname] at hkey hno
      exact ⟨m, hparsed, hm, (method_bound_iff hnodup hkeys hm hkey).mpr hno⟩

/-- A property of the characters of a string is checked character by character. -/
lemma forall_mem_of_all {p : Char → Prop} [DecidablePred p] {s : Str}
    (h : (s.all fun c => decide (p c)) = true) :
    ∀ c ∈ s, p c := fun c hc => of_decide_eq_true (List.all_eq_true.mp h c hc)

/-- An object with an enumeration, whose only label is its default, and a property. -/
def lampNode (enum property : Str) : ObjectNode :=
  ⟨some ['l', 'a', 'm', 'p'], .num 1, [⟨some enum, some ['O', 'n'], [⟨some ['O', 'n'], .num 0⟩]⟩],
    [⟨some property, .num 1, some ['b', 'o', 'o', 'l']⟩], [], []⟩

lemma lampNode_namesOk {enum property : Str} (henum : ∀ c ∈ enum, isNameChar c)
    (hproperty : ∀ c ∈ property, isNameChar c) : (lampNode enum property).NamesOk := by
  refine ⟨?_, ?_, ?_, ?_⟩
  · intro n hn name hname
    rw [List.mem_singleton.mp hn] at hname
    cases hname
    exact henum
  · intro n hn l hl name hname
    rw [List.mem_singleton.mp hn] at hl
    rw [List.mem_singleton.mp hl] at hname
    cases hname
    exact forall_mem_of_all (by decide)
  · intro n hn name hname
    rw [List.mem_singleton.mp hn] at hname
    cases hname
    exact hproperty
  · intro n hn
    exact absurd hn List.not_mem_nil

/-- Names with underscores are resolved. -/
theorem names_resolve_iff_lamp :
    (lampNode ['o', 'n', '_', 'o', 'f', 'f'] ['w', 'a', 't', 't']).NamesResolve := by
  refine (names_resolve_iff (lampNode_namesOk (forall_mem_of_all (by decide))
    (forall_mem_of_all (by decide)))).mpr ⟨?_, ?_, ?_⟩
  · rintro - n hn ⟨c, s, hname, hupper⟩
    rw [List.mem_singleton.mp hn] at hname
    cases hname
    cases hupper
  · rintro enums - - n hn ⟨s, c, hname, hc, hupper⟩
    rw [List.mem_singleton.mp hn] at hname
    cases hname
    have hplain : ∀ c ∈ ['w', 'a', 't', 't'], c.isUpper = false := forall_mem_of_all (by decide)
    rw [hplain c hc] at hupper
    cases hupper
  · rintro enums - props - - n hn
    exact absurd hn List.not_mem_nil

/-- Not every reference is resolved: the name in `enum:State` is looked up as `_state`. -/
theorem names_not_resolved : ¬∀ node : ObjectNode, node.NamesOk → node.NamesResolve := by
  intro hall
  have hok := hall (lampNode ['S', 't', 'a', 't', 'e'] ['w', 'a', 't', 't'])
    (lampNode_namesOk (forall_mem_of_all (by decide)) (forall_mem_of_all (by decide)))
  obtain ⟨e, -, -, hbound⟩ :=
    hok.types [⟨['s', 't', 'a', 't', 'e'], ['o', 'n'], [⟨['o', 'n'], 0⟩]⟩] rfl
    _ (List.mem_singleton_self _) _ rfl false
  cases hbound

end Obus.Idl
