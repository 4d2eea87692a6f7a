import ClassHierarchy.Event
import ClassHierarchy.Stub
import ClassHierarchy.Text.Split

namespace ClassHierarchy

structure PlatformIndex where
  table : StubTable := {}
  deriving DecidableEq

namespace PlatformIndex

def size (p : PlatformIndex) : Nat := p.table.size

def isEmpty (p : PlatformIndex) : Bool := p.table.isEmpty

def insert (p : PlatformIndex) (s : ClassStub) : PlatformIndex := ⟨p.table.insert s⟩

def ofList (stubs : List ClassStub) : PlatformIndex := stubs.foldl insert {}

def key (name : String) : FullName :=
  if name.toList.contains '/' then .ofInternal name else name

def find? (p : PlatformIndex) (name : String) : Option ClassStub := p.table.find? (key name)

def sameStub (p : PlatformIndex) (a b : String) : Bool :=
  (p.find? a).isSome && (p.find? b).isSome && key a == key b

def packages (p : PlatformIndex) : List String :=
  SortedList.ofList (p.table.stubs.filterMap ClassStub.package?)

open AccessFlags

namespace Builtin

def field (flags : AccessFlags) (name descriptor : String) : FieldStub := { name, descriptor, flags }

def method (flags : AccessFlags) (name descriptor : String) : MethodStub :=
  { name, descriptor, flags }

def objectName : FullName := "java.lang.Object"

def root (flags : AccessFlags) (name : FullName) : ClassStub := { name, flags }

def extending (superName : FullName) (flags : AccessFlags) (name : FullName) : ClassStub :=
  { name, flags, superName := some superName }

def publicAbstract : AccessFlags := publicBit ||| abstractBit

def publicStatic : AccessFlags := publicBit ||| staticBit

def interface (name : FullName) : ClassStub :=
  extending objectName (publicBit ||| interfaceBit ||| abstractBit) name

def language : List ClassStub := [
  { root publicBit objectName with
    methods := [
      method publicBit "<init>" "()V",
      method publicBit "equals" "(Ljava/lang/Object;)Z",
      method publicBit "hashCode" "()I",
      method publicBit "toString" "()Ljava/lang/String;",
      method (publicBit ||| finalBit) "getClass" "()Ljava/lang/Class;"] },
  { interface "java.lang.CharSequence" with
    methods := [
      method publicAbstract "length" "()I",
      method publicAbstract "charAt" "(I)C"] },
  { interface "java.lang.Comparable" with
    methods := [method publicAbstract "compareTo" "(Ljava/lang/Object;)I"] },
  interface "java.lang.Cloneable",
  { interface "java.lang.Iterable" with
    methods := [method publicAbstract "iterator" "()Ljava/util/Iterator;"] },
  { extending objectName (publicBit ||| finalBit) "java.lang.String" with
    interfaces := ["java.io.Serializable", "java.lang.Comparable", "java.lang.CharSequence"]
    fields := [field (privateBit ||| finalBit) "value" "[B"]
    methods := [
      method publicBit "<init>" "()V",
      method publicBit "length" "()I",
      method publicBit "charAt" "(I)C",
      method publicBit "compareTo" "(Ljava/lang/String;)I",
      method (publicStatic ||| varargsBit) "format"
        "(Ljava/lang/String;[Ljava/lang/Object;)Ljava/lang/String;",
      method publicStatic "valueOf" "(I)Ljava/lang/String;"] },
  { extending objectName publicAbstract "java.lang.Number" with
    interfaces := ["java.io.Serializable"]
    methods := [
      method publicBit "<init>" "()V",
      method publicAbstract "intValue" "()I",
      method publicAbstract "longValue" "()J"] },
  { extending "java.lang.Number" (publicBit ||| finalBit) "java.lang.Integer" with
    interfaces := ["java.lang.Comparable"]
    fields := [
      field (publicStatic ||| finalBit) "MAX_VALUE" "I",
      field (publicStatic ||| finalBit) "MIN_VALUE" "I",
      field finalBit "value" "I"]
    methods := [
      method publicBit "intValue" "()I",
      method publicBit "longValue" "()J",
      method publicStatic "valueOf" "(I)Ljava/lang/Integer;",
      method publicStatic "parseInt" "(Ljava/lang/String;)I",
      method staticBit "<clinit>" "()V"] },
  { extending objectName (publicBit ||| finalBit) "java.lang.System" with
    fields := [
      field (publicStatic ||| finalBit) "out" "Ljava/io/PrintStream;",
      field (publicStatic ||| finalBit) "err" "Ljava/io/PrintStream;"]
    methods := [
      method publicStatic "currentTimeMillis" "()J",
      method publicStatic "arraycopy" "(Ljava/lang/Object;ILjava/lang/Object;II)V",
      method staticBit "<clinit>" "()V"] },
  { extending objectName publicBit "java.lang.Throwable" with
    interfaces := ["java.io.Serializable"]
    fields := [field 0 "detailMessage" "Ljava/lang/String;"]
    methods := [
      method publicBit "<init>" "()V",
      method publicBit "<init>" "(Ljava/lang/String;)V",
      method publicBit "getMessage" "()Ljava/lang/String;"] },
  { extending "java.lang.Throwable" publicBit "java.lang.Exception" with
    methods := [
      method publicBit "<init>" "()V",
      method publicBit "<init>" "(Ljava/lang/String;)V"] },
  { extending "java.lang.Exception" publicBit "java.lang.RuntimeException" with
    methods := [
      method publicBit "<init>" "()V",
      method publicBit "<init>" "(Ljava/lang/String;)V"] }]

def streams : List ClassStub := [interface "java.io.Serializable"]

def collections : List ClassStub := [
  { interface "java.util.Collection" with
    interfaces := ["java.lang.Iterable"]
    methods := [
      method publicAbstract "size" "()I",
      method publicAbstract "isEmpty" "()Z",
      method publicAbstract "add" "(Ljava/lang/Object;)Z"] },
  { interface "java.util.List" with
    interfaces := ["java.util.Collection"]
    methods := [
      method publicAbstract "get" "(I)Ljava/lang/Object;",
      method publicAbstract "add" "(Ljava/lang/Object;)Z"] },
  interface "java.util.RandomAccess",
  { extending objectName publicAbstract "java.util.AbstractCollection" with
    interfaces := ["java.util.Collection"]
    methods := [
      method 0 "<init>" "()V",
      method publicAbstract "size" "()I",
      method publicBit "isEmpty" "()Z",
      method publicBit "add" "(Ljava/lang/Object;)Z"] },
  { extending "java.util.AbstractCollection" publicAbstract "java.util.AbstractList" with
    interfaces := ["java.util.List"]
    fields := [field 0 "modCount" "I"]
    methods := [
      method 0 "<init>" "()V",
      method publicAbstract "get" "(I)Ljava/lang/Object;",
      method publicBit "add" "(Ljava/lang/Object;)Z",
      method publicBit "clear" "()V"] },
  { extending "java.util.AbstractList" publicBit "java.util.ArrayList" with
    interfaces := ["java.util.List", "java.util.RandomAccess", "java.lang.Cloneable",
      "java.io.Serializable"]
    fields := [
      field 0 "elementData" "[Ljava/lang/Object;",
      field 0 "size" "I"]
    methods := [
      method publicBit "<init>" "()V",
      method publicBit "<init>" "(I)V",
      method publicBit "get" "(I)Ljava/lang/Object;",
      method publicBit "size" "()I",
      method publicBit "add" "(Ljava/lang/Object;)Z"] }]

end Builtin

def builtin : PlatformIndex :=
  ofList (Builtin.language ++ Builtin.streams ++ Builtin.collections)

def make (withBuiltin : Bool) : PlatformIndex × List Event :=
  if withBuiltin then (builtin, [.platformTableReady builtin.size]) else ({}, [])

end PlatformIndex

end ClassHierarchy
