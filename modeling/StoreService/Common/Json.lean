/-
Texts, error numbers and JSON items, as the request handlers use them (`common.h`, `cJSON.h`).

A std::string is a list of bytes (`Str`). A C string is the memory from a pointer on with the place of its first zero
(`CStr`): the bytes after the terminator are there, and what they are is not known.

A parsed JSON text is a tree of items (`CJson`). The service reads items through their children, their `valuestring`
(null for every item that is no string) and `cJSON_GetObjectItem`, which compares names without regard to case.
`cJSON_Parse` and `cJSON_Print` are parameters (`Codec`): nothing is assumed of them but that the empty text is no JSON.
-/
import Mathlib.Tactic

namespace StoreService.Json

/-- std::string -/
abbrev Str := List UInt8

def bytes (s : String) : Str := s.toUTF8.data.toList

/-- `const char *` -/
structure CStr where
  mem : ℕ → UInt8
  len : ℕ
  nul : mem len = 0
  before : ∀ i < len, mem i ≠ 0

/-- the std::string made of a C string -/
def CStr.text (c : CStr) : Str := (List.range c.len).map c.mem

theorem zero_not_mem_text (c : CStr) : 0 ∉ c.text := by
  intro h
  obtain ⟨i, hi, heq⟩ := List.mem_map.1 h
  exact c.before i (List.mem_range.1 hi) heq

/-- a text of its own as a C string, with zeros after it -/
def CStr.ofStr (s : Str) (h : 0 ∉ s) : CStr where
  mem i := s.getD i 0
  len := s.length
  nul := by simp
  before i hi := by
    rw [List.getD_eq_getElem?_getD, List.getElem?_eq_getElem hi, Option.getD_some]
    exact fun h0 => h (h0 ▸ List.getElem_mem hi)

theorem text_ofStr (s : Str) (h : 0 ∉ s) : (CStr.ofStr s h).text = s := by
  apply List.ext_getElem
  · rw [CStr.text, List.length_map, List.length_range]
    rfl
  · intro i hi hi'
    simp only [CStr.text, List.getElem_map, List.getElem_range]
    change s.getD i 0 = _
    rw [List.getD_eq_getElem?_getD, List.getElem?_eq_getElem hi', Option.getD_some]

/-- the errors of the modelled functions -/
inductive ErrorNo where
  | createStoreDirectoryFail
  | mallocMemoryFail
  | deviceAlreadyExist
  | scheduleDaysNotEnough
  | scheduleFormatError
  | noPostData
  | invalidJsonData
  | noMainIdInJson
  | noSubIdInJson
  | noDevNameInJson
  | noScheduleInJson
  | doNotFindCamera
  | doNotFindRecFiles
  | noStartTimeInJson
  | noTypeIdInJson
  | noFileNameInJson
  | noOperateTypeInJson
  | noUrlInJson
  | invalidScheduleTypeInJson
  | invalidDateFormatInJson
  | invalidEventTypeInJson
  | invalidFileOperateType
  | invalidTypeIdInJson
  | invalidUrlInJson
  | cjsonCalledError
deriving DecidableEq, Repr

/-- `store_api_ret` -/
def storeApiRet : ErrorNo → String
  | .createStoreDirectoryFail => "创建存储文件夹失败"
  | .mallocMemoryFail => "申请内存失败"
  | .deviceAlreadyExist => "设备已存在"
  | .scheduleDaysNotEnough => "录像计划天数小于7天"
  | .scheduleFormatError => "录像计划格式错误"
  | .noPostData => "没有POST数据"
  | .invalidJsonData => "无效的json数据"
  | .noMainIdInJson => "json数据没有设备主ID"
  | .noSubIdInJson => "json数据没有设备子ID"
  | .noDevNameInJson => "json数据没有设备名称"
  | .noScheduleInJson => "json数据没有录像或者备份计划"
  | .doNotFindCamera => "没有找到摄像机"
  | .doNotFindRecFiles => "没有找到对应文件"
  | .noStartTimeInJson => "json数据没有开始时间"
  | .noTypeIdInJson => "json数据没有typeId"
  | .noFileNameInJson => "json数据没有文件名称"
  | .noOperateTypeInJson => "json数据没有操作类型"
  | .noUrlInJson => "json数据没有url"
  | .invalidScheduleTypeInJson => "无效的计划类型"
  | .invalidDateFormatInJson => "无效的日期格式"
  | .invalidEventTypeInJson => "无效的事件类型"
  | .invalidFileOperateType => "无效的文件操作类型"
  | .invalidTypeIdInJson => "无效的typeId"
  | .invalidUrlInJson => "无效的url"
  | .cjsonCalledError => "cjson调用失败"

/-! ## Items -/

/-- the types of items -/
inductive ItemType where
  | false
  | true
  | null
  | number
  | string
  | array
  | object
deriving DecidableEq, Repr

/-- `struct cJSON`: the name of an item in an object, its string value, its children, its integer value, which is 0
unless the item is a number or `true`, and its type, which only `cJSON_Print` looks at -/
inductive CJson where
  | mk (string : Option Str) (valuestring : Option CStr) (child : List CJson) (valueint : ℤ := 0)
    (type : ItemType := .null)

namespace CJson

def string : CJson → Option Str
  | mk s _ _ _ _ => s

def valuestring : CJson → Option CStr
  | mk _ v _ _ _ => v

def child : CJson → List CJson
  | mk _ _ c _ _ => c

def valueint : CJson → ℤ
  | mk _ _ _ n _ => n

def type : CJson → ItemType
  | mk _ _ _ _ t => t

/-- `cJSON_GetArraySize` -/
def getArraySize (obj : CJson) : ℕ := obj.child.length

def tolower (c : UInt8) : UInt8 := if 65 ≤ c ∧ c ≤ 90 then c + 32 else c

/-- `cJSON_GetObjectItem`; the items of an array have no name -/
def getObjectItem (obj : CJson) (name : Str) : Option CJson :=
  obj.child.find? fun c => c.string.map (List.map tolower) = some (name.map tolower)

/-- `cJSON_CreateArray` with items -/
def array (items : List CJson) : CJson := mk none none items 0 .array

/-- `cJSON_CreateObject` with items -/
def object (items : List CJson) : CJson := mk none none items 0 .object

/-- `cJSON_CreateString` -/
def str (s : CStr) : CJson := mk none (some s) [] 0 .string

/-- `cJSON_CreateNumber` of an int -/
def num (n : ℤ) : CJson := mk none none [] n .number

/-- an item with its name in an object -/
def named (name : String) : CJson → CJson
  | mk _ v c n t => mk (some (bytes name)) v c n t

end CJson

structure Codec where
  /-- `cJSON_Parse` -/
  parse : Str → Option CJson
  /-- `cJSON_Print` -/
  print : CJson → Str
  parse_nil : parse [] = none

end StoreService.Json
