import SampleRtos.Service.List

/-!
# object.c: the object container

The container array as this configuration compiles it, the lookup of a class in
it, and the functions of object.c, thread.c, timer.c and ipc.c that put objects on
the list of their class and take them off. What these do to the scheduler, to the
timer list and to waiting threads happens in other memory. Names are written and
never read, and nothing reads `object_size`.
-/

namespace SampleRtos

open Intrusive

/-! ## rtdef.h and rtconfig.h -/

/-- `enum rt_object_class_type`; its last member `RT_Object_Class_Static` is a bit. -/
inductive ObjectClass where
  | thread
  | semaphore
  | mutex
  | event
  | mailBox
  | messageQueue
  | memHeap
  | memPool
  | device
  | timer
  | module
  | unknown
  deriving DecidableEq, Repr

def RT_Object_Class_Static : BitVec 8 := 0x80

namespace ObjectClass

def code : ObjectClass → BitVec 8
  | .thread => 0
  | .semaphore => 1
  | .mutex => 2
  | .event => 3
  | .mailBox => 4
  | .messageQueue => 5
  | .memHeap => 6
  | .memPool => 7
  | .device => 8
  | .timer => 9
  | .module => 10
  | .unknown => 11

/-- Whether what belongs to a class is compiled: `rtconfig.h` defines `RT_USING_SEMAPHORE`,
`_MUTEX`, `_EVENT`, `_MAILBOX` and `_MESSAGEQUEUE`, and threads and timers depend on no macro. -/
def compiled : ObjectClass → Bool
  | .thread | .semaphore | .mutex | .event | .mailBox | .messageQueue | .timer => true
  | _ => false

end ObjectClass

/-! ## The container -/

/-- `enum rt_object_info_type`; its last member `RT_Object_Info_Unknown` counts the others. -/
def rtObjectInfoType : List ObjectClass :=
  [.thread, .semaphore, .mutex, .event, .mailBox, .messageQueue, .memHeap, .memPool, .device,
    .timer, .module].filter ObjectClass.compiled

/-- `struct rt_object_information`. Of `object_list` the array keeps which entry's list head
both links point to before any object is registered. -/
structure RtObjectInformation where
  type : ObjectClass
  objectList : Option Nat

/-- The initialiser of a class, with `_OBJ_CONTAINER_LIST_INIT`. -/
def objectInformation (c : ObjectClass) : RtObjectInformation :=
  { type := c, objectList := some (rtObjectInfoType.idxOf c) }

/-- The initialisers of `rt_object_container`. The one for timers, which would stand after
the device's, is commented out. -/
def containerInitialisers : List RtObjectInformation :=
  ([.thread, .semaphore, .mutex, .event, .mailBox, .messageQueue, .memHeap, .memPool, .device,
    .module].filter ObjectClass.compiled).map objectInformation

/-- `rt_object_container[RT_Object_Info_Unknown]`. What has no initialiser is zero, and so
is `RT_Object_Class_Thread`. -/
def rtObjectContainer : List RtObjectInformation :=
  containerInitialisers ++
    List.replicate (rtObjectInfoType.length - containerInitialisers.length)
      { type := .thread, objectList := none }

/-- `rt_object_get_information`: the index of the entry it returns, `none` for `RT_NULL`. -/
def rtObjectGetInformation (type : ObjectClass) : Option Nat :=
  rtObjectContainer.findIdx? fun e => e.type = type

/-! ## Objects -/

/-- What has an object header. The timer inside a thread is an object beside the thread. -/
inductive Obj (τ σ υ : Type) where
  | thread (t : τ)
  | threadTimer (t : τ)
  | sem (s : σ)
  | timer (u : υ)
  deriving DecidableEq, Repr

/-- The `type` of the object headers, the `cleanup` of the threads, and the store of the
`list` nodes and of the list heads in the container. -/
structure Registry (τ σ υ : Type) where
  type : Obj τ σ υ → BitVec 8
  cleanup : τ → Bool
  list : Links (Node Nat (Obj τ σ υ))

section Registry
variable {τ σ υ : Type} [DecidableEq τ] [DecidableEq σ] [DecidableEq υ]

def rtObjectIsSystemobject (type : BitVec 8) : Bool :=
  type &&& RT_Object_Class_Static ≠ 0

namespace Registry

/-- `rt_object_init`. `&information->object_list` of a null `information` is no list head. -/
def rtObjectInit (k : Registry τ σ υ) (object : Obj τ σ υ) (type : ObjectClass) :
    Option (Registry τ σ υ) := do
  let information := rtObjectGetInformation type
  let k := { k with
    type := Function.update k.type object (type.code ||| RT_Object_Class_Static) }
  -- the header is written before the list is reached
  let index ← information
  let l ← rtListInsertAfter k.list (.head index) (.item object)
  return { k with list := l }

def rtObjectDetach (k : Registry τ σ υ) (object : Obj τ σ υ) : Option (Registry τ σ υ) := do
  let l ← rtListRemove k.list (.item object)
  return { k with list := l }

def rtTimerInit (k : Registry τ σ υ) (timer : Obj τ σ υ) : Option (Registry τ σ υ) :=
  k.rtObjectInit timer .timer

def rtTimerDetach (k : Registry τ σ υ) (timer : Obj τ σ υ) : Option (Registry τ σ υ) :=
  k.rtObjectDetach timer

/-- `rt_thread_init`, which leaves `cleanup` as it is. -/
def rtThreadInit (k : Registry τ σ υ) (t : τ) : Option (Registry τ σ υ) := do
  let k ← k.rtObjectInit (.thread t) .thread
  k.rtTimerInit (.threadTimer t)

/-- `rt_thread_detach`: a thread with a `cleanup` goes to `rt_thread_defunct` instead. -/
def rtThreadDetach (k : Registry τ σ υ) (t : τ) : Option (Registry τ σ υ) := do
  let k ← k.rtTimerDetach (.threadTimer t)
  if rtObjectIsSystemobject (k.type (.thread t)) ∧ ¬ k.cleanup t then
    k.rtObjectDetach (.thread t)
  else return k

def rtSemInit (k : Registry τ σ υ) (s : σ) : Option (Registry τ σ υ) :=
  k.rtObjectInit (.sem s) .semaphore

def rtSemDetach (k : Registry τ σ υ) (s : σ) : Option (Registry τ σ υ) :=
  k.rtObjectDetach (.sem s)

end Registry

/-- The links the initialisers of the container leave, with every object node null. -/
def containerLinks : Links (Node Nat (Obj τ σ υ)) :=
  let link : Node Nat (Obj τ σ υ) → Option (Node Nat (Obj τ σ υ))
    | .head i => ((rtObjectContainer[i]?).bind (·.objectList)).map .head
    | .item _ => none
  { next := link, prev := link }

inductive RegistryOp (τ σ υ : Type) where
  | threadInit (t : τ)
  | timerInit (u : υ)
  | semInit (s : σ)
  | threadDetach (t : τ)
  | timerDetach (u : υ)
  | semDetach (s : σ)
  | objectDetach (object : Obj τ σ υ)

def RegistryOp.exec (k : Registry τ σ υ) : RegistryOp τ σ υ → Option (Registry τ σ υ)
  | .threadInit t => k.rtThreadInit t
  | .timerInit u => k.rtTimerInit (.timer u)
  | .semInit s => k.rtSemInit s
  | .threadDetach t => k.rtThreadDetach t
  | .timerDetach u => k.rtTimerDetach (.timer u)
  | .semDetach s => k.rtSemDetach s
  | .objectDetach object => k.rtObjectDetach object

end Registry

end SampleRtos
