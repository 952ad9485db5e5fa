import Scriptwright.Fragment.Library

/-!
# The standard fragments

The helpers that come with the library, written in the plain dialect of the host:
no arrow functions, no object literal returned directly, no console output.  They
expect the application handle to be bound as `app`.
-/

namespace Scriptwright

namespace StandardFragments

/-- Lines of code, one below the other. -/
def block (lines : List String) : Text := Text.join ['\n'] (lines.map String.toList)

/-- Calls a getter and falls back to another value if there is none. -/
def safeGet : Text := block [
  "function safeGet(getter, fallback) \x7b",
  "  try \x7b",
  "    var value = getter();",
  "    return (value === null || typeof value === \"undefined\") ? fallback : value;",
  "  \x7d catch (e) \x7b",
  "    return fallback;",
  "  \x7d",
  "\x7d"]

/-- Finds a database by name; without a name, the current one. -/
def findDatabase : Text := block [
  "function findDatabase(name) \x7b",
  "  if (!name) \x7b",
  "    return app.currentDatabase();",
  "  \x7d",
  "  var databases = app.databases();",
  "  for (var i = 0; i < databases.length; i++) \x7b",
  "    if (databases[i].name() === name) \x7b",
  "      return databases[i];",
  "    \x7d",
  "  \x7d",
  "  return null;",
  "\x7d"]

/-- Finds a record by its unique identifier, or else by its number in a database. -/
def getRecord : Text := block [
  "function getRecord(uuid, recordId, databaseName) \x7b",
  "  if (uuid) \x7b",
  "    var byUuid = app.getRecordWithUuid(uuid);",
  "    if (byUuid) \x7b",
  "      return byUuid;",
  "    \x7d",
  "  \x7d",
  "  if (recordId !== null && typeof recordId !== \"undefined\") \x7b",
  "    var database = findDatabase(databaseName);",
  "    if (database) \x7b",
  "      return database.getRecordWithId(recordId);",
  "    \x7d",
  "  \x7d",
  "  return null;",
  "\x7d"]

/-- Tells groups from other records. -/
def isGroup : Text := block [
  "function isGroup(record) \x7b",
  "  var kind = String(record.type()).toLowerCase();",
  "  return kind === \"group\" || kind === \"smart group\";",
  "\x7d"]

/-- Collects the main properties of a record. -/
def recordSummary : Text := block [
  "function recordSummary(record) \x7b",
  "  var summary = \x7b\x7d;",
  "  summary.uuid = safeGet(function () \x7b return record.uuid(); \x7d, null);",
  "  summary.name = safeGet(function () \x7b return record.name(); \x7d, \"\");",
  "  summary.type = safeGet(function () \x7b return String(record.type()); \x7d, \"unknown\");",
  "  summary.location = safeGet(function () \x7b return record.location(); \x7d, \"\");",
  "  summary.tags = safeGet(function () \x7b return record.tags(); \x7d, []);",
  "  return summary;",
  "\x7d"]

/-- Collects the summaries of all records of a group, down to a depth. -/
def collectChildren : Text := block [
  "function collectChildren(group, maxDepth, depth, results) \x7b",
  "  var level = depth || 0;",
  "  var found = results || [];",
  "  var children = group.children();",
  "  for (var i = 0; i < children.length; i++) \x7b",
  "    var child = children[i];",
  "    found.push(recordSummary(child));",
  "    if (isGroup(child) && level + 1 < maxDepth) \x7b",
  "      collectChildren(child, maxDepth, level + 1, found);",
  "    \x7d",
  "  \x7d",
  "  return found;",
  "\x7d"]

/-- Serialises a successful result. -/
def successResult : Text := block [
  "function successResult(data) \x7b",
  "  var result = \x7b\x7d;",
  "  result.success = true;",
  "  result.data = data;",
  "  return JSON.stringify(result);",
  "\x7d"]

/-- Serialises a failure. -/
def errorResult : Text := block [
  "function errorResult(message, details) \x7b",
  "  var result = \x7b\x7d;",
  "  result.success = false;",
  "  result.error = String(message);",
  "  if (details) \x7b",
  "    result.details = details;",
  "  \x7d",
  "  return JSON.stringify(result);",
  "\x7d"]

/-- Sends a prompt with its options and returns the answer. -/
def runAiRequest : Text := block [
  "function runAiRequest(prompt, records, options) \x7b",
  "  var settings = options || \x7b\x7d;",
  "  var request = \x7b\x7d;",
  "  if (records && records.length > 0) \x7b",
  "    request.record = records;",
  "  \x7d",
  "  if (settings.engine) \x7b",
  "    request.engine = settings.engine;",
  "  \x7d",
  "  if (settings.model) \x7b",
  "    request.model = settings.model;",
  "  \x7d",
  "  if (typeof settings.temperature === \"number\") \x7b",
  "    request.temperature = settings.temperature;",
  "  \x7d",
  "  request.as = settings.format || \"text\";",
  "  return safeGet(function () \x7b " ++
    "return app.getChatResponseForMessage(prompt, request); \x7d, null);",
  "\x7d"]

/-- Reads the object out of an answer, or leaves the answer as text. -/
def parseAiResponse : Text := block [
  "function parseAiResponse(response) \x7b",
  "  if (response === null || typeof response === \"undefined\") \x7b",
  "    return null;",
  "  \x7d",
  "  if (typeof response !== \"string\") \x7b",
  "    return response;",
  "  \x7d",
  "  var text = String(response).trim();",
  "  var start = text.indexOf(\"\x7b\");",
  "  var end = text.lastIndexOf(\"\x7d\");",
  "  if (start !== -1 && end > start) \x7b",
  "    try \x7b",
  "      return JSON.parse(text.substring(start, end + 1));",
  "    \x7d catch (e) \x7b",
  "      return text;",
  "    \x7d",
  "  \x7d",
  "  return text;",
  "\x7d"]

/-- All helpers with their names and needs. -/
def entries : List (String × Text × List String) := [
  ("safeGet", safeGet, []),
  ("findDatabase", findDatabase, []),
  ("getRecord", getRecord, ["findDatabase"]),
  ("isGroup", isGroup, []),
  ("recordSummary", recordSummary, ["safeGet"]),
  ("collectChildren", collectChildren, ["isGroup", "recordSummary"]),
  ("successResult", successResult, ["JSON"]),
  ("errorResult", errorResult, ["JSON"]),
  ("runAiRequest", runAiRequest, ["safeGet"]),
  ("parseAiResponse", parseAiResponse, ["JSON"])]

end StandardFragments

/-- The library of the standard fragments. -/
def Library.standard : Library :=
  NameMap.insertMany .empty (StandardFragments.entries.map fun (name, code, needs) =>
    (name.toList, (Fragment.ofCode code).dependsOn (needs.map String.toList)))

end Scriptwright
