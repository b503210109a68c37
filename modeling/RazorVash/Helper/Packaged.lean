import RazorVash.Storage.Path

namespace RazorVash

structure PackagedHelper where
  file : Text
  text : Text
deriving DecidableEq, Repr

namespace PackagedHelper

def ofLines (file : String) (lines : List String) : PackagedHelper where
  file := file.toList
  text := lines.flatMap fun line => line.toList ++ ['\n']

def renderPartial : PackagedHelper := ofLines "RenderPartial.vash"
  ["@Html.RenderPartial = function(name, model) \x7b",
    "\t@Html.raw(vash.helpers.tplcache[name](model || Model))",
    "\x7d"]

def loop : PackagedHelper := ofLines "foreach.vash"
  ["@Html.foreach = function(list, fn) \x7b",
    "\t@for(var i = 0; i < list.length; i++) \x7b",
    "\t\t@fn(list[i], i)",
    "\t\x7d",
    "\x7d"]

def layoutContent : PackagedHelper := ofLines "LayoutContent.vash"
  ["@Html.LayoutContent = function(name) \x7b",
    "\t@Html.block(name || \"content\")",
    "\x7d"]

def emptyTest : PackagedHelper := ofLines "StringIsNullOrEmpty.vash"
  ["@Html.StringIsNullOrEmpty = function(str) \x7b",
    "\t@\x7b",
    "\t\treturn str === null || str === undefined || String(str).length === 0;",
    "\t\x7d",
    "\x7d"]

def blankTest : PackagedHelper := ofLines "StringIsNullOrWhiteSpace.vash"
  ["@Html.StringIsNullOrWhiteSpace = function(str) \x7b",
    "\t@\x7b",
    "\t\treturn str === null || str === undefined || String(str).trim().length === 0;",
    "\t\x7d",
    "\x7d"]

def all : List PackagedHelper := [renderPartial, loop, layoutContent, emptyTest, blankTest]

/-- Packaged helpers are shown below a directory that stands for their place. -/
def shownPath (helper : PackagedHelper) : Text := "<HELPERS>/".toList ++ helper.file

end PackagedHelper

end RazorVash
