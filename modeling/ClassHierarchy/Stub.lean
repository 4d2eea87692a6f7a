import ClassHierarchy.Descriptor.Parser

namespace ClassHierarchy

abbrev AccessFlags := UInt16

namespace AccessFlags

def publicBit : AccessFlags := 0x0001
def privateBit : AccessFlags := 0x0002
def staticBit : AccessFlags := 0x0008
def finalBit : AccessFlags := 0x0010
def varargsBit : AccessFlags := 0x0080
def interfaceBit : AccessFlags := 0x0200
def abstractBit : AccessFlags := 0x0400

def has (flags bit : AccessFlags) : Bool := flags &&& bit != 0

def isStatic (flags : AccessFlags) : Bool := flags.has staticBit
def isFinal (flags : AccessFlags) : Bool := flags.has finalBit
def isInterface (flags : AccessFlags) : Bool := flags.has interfaceBit
def isAbstract (flags : AccessFlags) : Bool := flags.has abstractBit

end AccessFlags

structure FieldStub where
  name : String
  descriptor : String
  flags : AccessFlags := 0
  deriving DecidableEq

structure MethodStub where
  name : String
  descriptor : String
  flags : AccessFlags := 0
  deriving DecidableEq

structure ClassStub where
  name : FullName
  flags : AccessFlags := 0
  superName : Option FullName := none
  interfaces : List FullName := []
  fields : List FieldStub := []
  methods : List MethodStub := []
  deriving DecidableEq

namespace FieldStub

def isStatic (f : FieldStub) : Bool := f.flags.isStatic

def type (f : FieldStub) : Except InvalidDescriptor FieldType :=
  FieldType.ofDescriptor f.descriptor

end FieldStub

def MethodStub.type (m : MethodStub) : Except InvalidDescriptor MethodDescriptor :=
  MethodDescriptor.ofDescriptor m.descriptor

namespace ClassStub

def isInterface (s : ClassStub) : Bool := s.flags.isInterface

def package? (s : ClassStub) : Option String := s.name.package?

def simpleName (s : ClassStub) : String := s.name.short

end ClassStub

abbrev StubProvider := FullName → Option ClassStub

structure StubTable where
  stubs : List ClassStub := []
  deriving DecidableEq

namespace StubTable

def size (t : StubTable) : Nat := t.stubs.length

def isEmpty (t : StubTable) : Bool := t.stubs.isEmpty

def find? (t : StubTable) (name : FullName) : Option ClassStub :=
  t.stubs.find? (·.name == name)

def replace (s : ClassStub) : List ClassStub → List ClassStub
  | [] => [s]
  | x :: xs => if x.name = s.name then s :: xs else x :: replace s xs

def insert (t : StubTable) (s : ClassStub) : StubTable := ⟨replace s t.stubs⟩

def ofList (stubs : List ClassStub) : StubTable := stubs.foldl insert {}

theorem find?_insert (t : StubTable) (s : ClassStub) (name : FullName) :
    (t.insert s).find? name = if name = s.name then some s else t.find? name := by
  obtain ⟨stubs⟩ := t
  simp only [insert, find?]
  induction stubs with
  | nil =>
    by_cases h : name = s.name
    · simp [replace, h]
    · simp [replace, h, Ne.symm h]
  | cons x xs ih =>
    by_cases hx : x.name = s.name
    · by_cases h : name = s.name
      · simp [replace, hx, h]
      · simp [replace, hx, h, Ne.symm h]
    · by_cases hn : x.name = name
      · subst hn
        simp [replace, hx]
      · simp [replace, hx, hn, ih]

end StubTable

end ClassHierarchy
