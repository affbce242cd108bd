/-
# Fragments of C++ programs

The definition, parser and serializer of each structure as C++ text, and the runtime that every
program carries: canonical JSON, sorting of unordered results, and running one case.
The runtime stands in two halves. The overloads that convert structures come between them: they
use the first half, and the container templates of the second half use them.
-/

import HarnessSynthesis.Fragments.Block

namespace HarnessSynthesis.Fragments.Cpp

/-- The type of a list node. -/
def listNodeDefinition : Text := block [
  "struct ListNode \x7b",
  "    int val;",
  "    ListNode *next;",
  "    ListNode() : val(0), next(nullptr) \x7b\x7d",
  "    ListNode(int x) : val(x), next(nullptr) \x7b\x7d",
  "    ListNode(int x, ListNode *next) : val(x), next(next) \x7b\x7d",
  "\x7d;"]

/-- Builds a list node from plain data. -/
def listNodeParser : Text := block [
  "ListNode* parseListNode(const JsonValue& json) \x7b",
  "    if (json.kind != JsonValue::Array || json.items.empty()) return nullptr;",
  "    ListNode* head = new ListNode(harnessInt(json.items[0]));",
  "    ListNode* cur = head;",
  "    for (size_t i = 1; i < json.items.size(); i++) \x7b",
  "        cur->next = new ListNode(harnessInt(json.items[i]));",
  "        cur = cur->next;",
  "    \x7d",
  "    return head;",
  "\x7d"]

/-- Turns a list node back into plain data. -/
def listNodeSerializer : Text := block [
  "JsonValue serializeListNode(ListNode* head) \x7b",
  "    JsonValue out = harnessArray();",
  "    for (ListNode* cur = head; cur != nullptr; cur = cur->next) \x7b",
  "        out.items.push_back(toJsonValue(cur->val));",
  "    \x7d",
  "    return out;",
  "\x7d"]

/-- The fragments of a list node. -/
def listNode : Fragments :=
  ⟨listNodeDefinition, listNodeParser, listNodeSerializer⟩

/-- The type of a tree node. -/
def treeNodeDefinition : Text := block [
  "struct TreeNode \x7b",
  "    int val;",
  "    TreeNode *left;",
  "    TreeNode *right;",
  "    TreeNode() : val(0), left(nullptr), right(nullptr) \x7b\x7d",
  "    TreeNode(int x) : val(x), left(nullptr), right(nullptr) \x7b\x7d",
  "    TreeNode(int x, TreeNode *left, TreeNode *right) : val(x), left(left), right(right) \x7b\x7d",
  "\x7d;"]

/-- Builds a tree node from plain data. -/
def treeNodeParser : Text := block [
  "TreeNode* parseTreeNode(const JsonValue& json) \x7b",
  "    if (json.kind != JsonValue::Array || json.items.empty() || json.items[0].kind == JsonValue::Null) return nullptr;",
  "    const vector<JsonValue>& values = json.items;",
  "    TreeNode* root = new TreeNode(harnessInt(values[0]));",
  "    queue<TreeNode*> pending;",
  "    pending.push(root);",
  "    size_t i = 1;",
  "    while (!pending.empty() && i < values.size()) \x7b",
  "        TreeNode* node = pending.front();",
  "        pending.pop();",
  "        if (i < values.size() && values[i].kind != JsonValue::Null) \x7b",
  "            node->left = new TreeNode(harnessInt(values[i]));",
  "            pending.push(node->left);",
  "        \x7d",
  "        i++;",
  "        if (i < values.size() && values[i].kind != JsonValue::Null) \x7b",
  "            node->right = new TreeNode(harnessInt(values[i]));",
  "            pending.push(node->right);",
  "        \x7d",
  "        i++;",
  "    \x7d",
  "    return root;",
  "\x7d"]

/-- Turns a tree node back into plain data. -/
def treeNodeSerializer : Text := block [
  "JsonValue serializeTreeNode(TreeNode* root) \x7b",
  "    JsonValue out = harnessArray();",
  "    queue<TreeNode*> pending;",
  "    pending.push(root);",
  "    while (!pending.empty()) \x7b",
  "        TreeNode* node = pending.front();",
  "        pending.pop();",
  "        if (node == nullptr) \x7b",
  "            out.items.push_back(JsonValue());",
  "            continue;",
  "        \x7d",
  "        out.items.push_back(toJsonValue(node->val));",
  "        pending.push(node->left);",
  "        pending.push(node->right);",
  "    \x7d",
  "    while (!out.items.empty() && out.items.back().kind == JsonValue::Null) out.items.pop_back();",
  "    return out;",
  "\x7d"]

/-- The fragments of a tree node. -/
def treeNode : Fragments :=
  ⟨treeNodeDefinition, treeNodeParser, treeNodeSerializer⟩

/-- The type of an interval. -/
def intervalDefinition : Text := block [
  "struct Interval \x7b",
  "    int start;",
  "    int end;",
  "    Interval() : start(0), end(0) \x7b\x7d",
  "    Interval(int s, int e) : start(s), end(e) \x7b\x7d",
  "\x7d;"]

/-- Builds an interval from plain data. -/
def intervalParser : Text := block [
  "Interval parseInterval(const JsonValue& json) \x7b",
  "    if (json.kind != JsonValue::Array || json.items.size() < 2) return Interval();",
  "    return Interval(harnessInt(json.items[0]), harnessInt(json.items[1]));",
  "\x7d"]

/-- Turns an interval back into plain data. -/
def intervalSerializer : Text := block [
  "JsonValue serializeInterval(const Interval& interval) \x7b",
  "    JsonValue out = harnessArray();",
  "    out.items.push_back(toJsonValue(interval.start));",
  "    out.items.push_back(toJsonValue(interval.end));",
  "    return out;",
  "\x7d"]

/-- The fragments of an interval. -/
def interval : Fragments :=
  ⟨intervalDefinition, intervalParser, intervalSerializer⟩

/-- The type of a graph node. -/
def graphNodeDefinition : Text := block [
  "class GraphNode \x7b",
  "public:",
  "    int val;",
  "    vector<GraphNode*> neighbors;",
  "    GraphNode() : val(0) \x7b\x7d",
  "    GraphNode(int x) : val(x) \x7b\x7d",
  "    GraphNode(int x, vector<GraphNode*> neighbors) : val(x), neighbors(neighbors) \x7b\x7d",
  "\x7d;"]

/-- Builds a graph node from plain data. -/
def graphNodeParser : Text := block [
  "GraphNode* parseGraphNode(const JsonValue& json) \x7b",
  "    if (json.kind != JsonValue::Array || json.items.empty()) return nullptr;",
  "    vector<GraphNode*> nodes;",
  "    for (size_t i = 0; i < json.items.size(); i++) nodes.push_back(new GraphNode((int) i + 1));",
  "    for (size_t i = 0; i < json.items.size(); i++) \x7b",
  "        for (const JsonValue& v : json.items[i].items) nodes[i]->neighbors.push_back(nodes[harnessInt(v) - 1]);",
  "    \x7d",
  "    return nodes[0];",
  "\x7d"]

/-- Turns a graph node back into plain data. -/
def graphNodeSerializer : Text := block [
  "JsonValue serializeGraphNode(GraphNode* node) \x7b",
  "    JsonValue out = harnessArray();",
  "    if (node == nullptr) return out;",
  "    map<int, GraphNode*> seen;",
  "    queue<GraphNode*> pending;",
  "    seen[node->val] = node;",
  "    pending.push(node);",
  "    while (!pending.empty()) \x7b",
  "        GraphNode* cur = pending.front();",
  "        pending.pop();",
  "        for (GraphNode* next : cur->neighbors) \x7b",
  "            if (next != nullptr && seen.find(next->val) == seen.end()) \x7b",
  "                seen[next->val] = next;",
  "                pending.push(next);",
  "            \x7d",
  "        \x7d",
  "    \x7d",
  "    for (auto& entry : seen) \x7b",
  "        JsonValue row = harnessArray();",
  "        for (GraphNode* m : entry.second->neighbors) row.items.push_back(toJsonValue(m->val));",
  "        out.items.push_back(row);",
  "    \x7d",
  "    return out;",
  "\x7d"]

/-- The fragments of a graph node. -/
def graphNode : Fragments :=
  ⟨graphNodeDefinition, graphNodeParser, graphNodeSerializer⟩

/-- The type of a trie node. -/
def trieNodeDefinition : Text := block [
  "struct TrieNode \x7b",
  "    map<char, TrieNode*> children;",
  "    bool isEnd;",
  "    TrieNode() : isEnd(false) \x7b\x7d",
  "\x7d;"]

/-- Builds a trie node from plain data. -/
def trieNodeParser : Text := block [
  "TrieNode* parseTrieNode(const JsonValue& json) \x7b",
  "    if (json.kind != JsonValue::Object) return nullptr;",
  "    TrieNode* node = new TrieNode();",
  "    for (size_t i = 0; i < json.keys.size(); i++) \x7b",
  "        if (json.keys[i] == \"isEnd\") \x7b",
  "            node->isEnd = json.values[i].kind == JsonValue::Bool && json.values[i].boolean;",
  "        \x7d else if (!json.keys[i].empty()) \x7b",
  "            TrieNode* child = parseTrieNode(json.values[i]);",
  "            if (child != nullptr) node->children[json.keys[i][0]] = child;",
  "        \x7d",
  "    \x7d",
  "    return node;",
  "\x7d"]

/-- Turns a trie node back into plain data. -/
def trieNodeSerializer : Text := block [
  "JsonValue serializeTrieNode(TrieNode* node) \x7b",
  "    JsonValue out = harnessObject();",
  "    if (node == nullptr) return out;",
  "    if (node->isEnd) harnessSet(out, \"isEnd\", toJsonValue(true));",
  "    for (auto& entry : node->children) \x7b",
  "        harnessSet(out, string(1, entry.first), serializeTrieNode(entry.second));",
  "    \x7d",
  "    return out;",
  "\x7d"]

/-- The fragments of a trie node. -/
def trieNode : Fragments :=
  ⟨trieNodeDefinition, trieNodeParser, trieNodeSerializer⟩

/-- The half of the runtime in front of the overloads for structures. -/
def runtime : Text := block [
  "struct JsonValue \x7b",
  "    enum Kind \x7b Null, Bool, Number, String, Array, Object \x7d;",
  "    Kind kind = Null;",
  "    bool boolean = false;",
  "    bool integral = false;",
  "    long long integer = 0;",
  "    double number = 0;",
  "    string text;",
  "    vector<JsonValue> items;",
  "    vector<string> keys;",
  "    vector<JsonValue> values;",
  "\x7d;",
  "",
  "JsonValue harnessArray() \x7b",
  "    JsonValue v;",
  "    v.kind = JsonValue::Array;",
  "    return v;",
  "\x7d",
  "",
  "JsonValue harnessObject() \x7b",
  "    JsonValue v;",
  "    v.kind = JsonValue::Object;",
  "    return v;",
  "\x7d",
  "",
  "void harnessSet(JsonValue& object, const string& key, const JsonValue& value) \x7b",
  "    for (size_t i = 0; i < object.keys.size(); i++) \x7b",
  "        if (object.keys[i] == key) \x7b",
  "            object.values[i] = value;",
  "            return;",
  "        \x7d",
  "    \x7d",
  "    object.keys.push_back(key);",
  "    object.values.push_back(value);",
  "\x7d",
  "",
  "int harnessInt(const JsonValue& v) \x7b",
  "    if (v.kind != JsonValue::Number) return 0;",
  "    return v.integral ? (int) v.integer : (int) v.number;",
  "\x7d",
  "",
  "struct HarnessJsonReader \x7b",
  "    const string& text;",
  "    size_t pos = 0;",
  "",
  "    explicit HarnessJsonReader(const string& text) : text(text) \x7b\x7d",
  "",
  "    void skip() \x7b",
  "        while (pos < text.size() && isspace((unsigned char) text[pos])) pos++;",
  "    \x7d",
  "",
  "    char peek() \x7b",
  "        skip();",
  "        return pos < text.size() ? text[pos] : '\\0';",
  "    \x7d",
  "",
  "    JsonValue read() \x7b",
  "        char c = peek();",
  "        JsonValue v;",
  "        if (c == '[') \x7b",
  "            pos++;",
  "            v.kind = JsonValue::Array;",
  "            if (peek() == ']') \x7b pos++; return v; \x7d",
  "            while (pos < text.size()) \x7b",
  "                v.items.push_back(read());",
  "                char sep = peek();",
  "                pos++;",
  "                if (sep != ',') break;",
  "            \x7d",
  "            return v;",
  "        \x7d",
  "        if (c == '\x7b') \x7b",
  "            pos++;",
  "            v.kind = JsonValue::Object;",
  "            if (peek() == '\x7d') \x7b pos++; return v; \x7d",
  "            while (pos < text.size()) \x7b",
  "                peek();",
  "                string key = readString();",
  "                peek();",
  "                pos++;",
  "                harnessSet(v, key, read());",
  "                char sep = peek();",
  "                pos++;",
  "                if (sep != ',') break;",
  "            \x7d",
  "            return v;",
  "        \x7d",
  "        if (c == '\"') \x7b",
  "            v.kind = JsonValue::String;",
  "            v.text = readString();",
  "            return v;",
  "        \x7d",
  "        if (text.compare(pos, 4, \"true\") == 0) \x7b pos += 4; v.kind = JsonValue::Bool; v.boolean = true; return v; \x7d",
  "        if (text.compare(pos, 5, \"false\") == 0) \x7b pos += 5; v.kind = JsonValue::Bool; return v; \x7d",
  "        if (text.compare(pos, 4, \"null\") == 0) \x7b pos += 4; return v; \x7d",
  "        size_t start = pos;",
  "        while (pos < text.size() && string(\"+-0123456789.eE\").find(text[pos]) != string::npos) pos++;",
  "        string literal = text.substr(start, pos - start);",
  "        v.kind = JsonValue::Number;",
  "        v.number = literal.empty() ? 0 : strtod(literal.c_str(), nullptr);",
  "        if (!literal.empty() && literal.find_first_of(\".eE\") == string::npos) \x7b",
  "            errno = 0;",
  "            long long parsed = strtoll(literal.c_str(), nullptr, 10);",
  "            if (errno == 0) \x7b",
  "                v.integral = true;",
  "                v.integer = parsed;",
  "            \x7d",
  "        \x7d",
  "        return v;",
  "    \x7d",
  "",
  "    string readString() \x7b",
  "        string out;",
  "        pos++;",
  "        while (pos < text.size()) \x7b",
  "            char c = text[pos++];",
  "            if (c == '\"') break;",
  "            if (c != '\\\\') \x7b out += c; continue; \x7d",
  "            char e = text[pos++];",
  "            switch (e) \x7b",
  "                case 'n': out += '\\n'; break;",
  "                case 't': out += '\\t'; break;",
  "                case 'r': out += '\\r'; break;",
  "                case 'b': out += '\\b'; break;",
  "                case 'f': out += '\\f'; break;",
  "                case 'u': \x7b",
  "                    unsigned code = (unsigned) strtoul(text.substr(pos, 4).c_str(), nullptr, 16);",
  "                    pos += 4;",
  "                    if (code < 0x80) \x7b",
  "                        out += (char) code;",
  "                    \x7d else if (code < 0x800) \x7b",
  "                        out += (char) (0xC0 | (code >> 6));",
  "                        out += (char) (0x80 | (code & 0x3F));",
  "                    \x7d else \x7b",
  "                        out += (char) (0xE0 | (code >> 12));",
  "                        out += (char) (0x80 | ((code >> 6) & 0x3F));",
  "                        out += (char) (0x80 | (code & 0x3F));",
  "                    \x7d",
  "                    break;",
  "                \x7d",
  "                default: out += e;",
  "            \x7d",
  "        \x7d",
  "        return out;",
  "    \x7d",
  "\x7d;",
  "",
  "JsonValue harnessParseJson(const string& text) \x7b",
  "    HarnessJsonReader reader(text);",
  "    return reader.read();",
  "\x7d",
  "",
  "string harnessFormatDouble(double d) \x7b",
  "    if (std::isnan(d) || std::isinf(d)) return \"null\";",
  "    if (d == std::floor(d) && std::fabs(d) < 1e15) return to_string((long long) d);",
  "    for (int precision = 1; precision <= 17; precision++) \x7b",
  "        ostringstream out;",
  "        out << setprecision(precision) << d;",
  "        if (strtod(out.str().c_str(), nullptr) == d) return out.str();",
  "    \x7d",
  "    ostringstream out;",
  "    out << setprecision(17) << d;",
  "    return out.str();",
  "\x7d",
  "",
  "void harnessWriteString(ostringstream& out, const string& s) \x7b",
  "    out << '\"';",
  "    for (unsigned char c : s) \x7b",
  "        switch (c) \x7b",
  "            case '\"': out << \"\\\\\\\"\"; break;",
  "            case '\\\\': out << \"\\\\\\\\\"; break;",
  "            case '\\n': out << \"\\\\n\"; break;",
  "            case '\\r': out << \"\\\\r\"; break;",
  "            case '\\t': out << \"\\\\t\"; break;",
  "            case '\\b': out << \"\\\\b\"; break;",
  "            case '\\f': out << \"\\\\f\"; break;",
  "            default:",
  "                if (c < 0x20) \x7b",
  "                    char buf[8];",
  "                    snprintf(buf, sizeof(buf), \"\\\\u%04x\", (unsigned) c);",
  "                    out << buf;",
  "                \x7d else \x7b",
  "                    out << (char) c;",
  "                \x7d",
  "        \x7d",
  "    \x7d",
  "    out << '\"';",
  "\x7d",
  "",
  "void harnessWriteJson(ostringstream& out, const JsonValue& v) \x7b",
  "    switch (v.kind) \x7b",
  "        case JsonValue::Null: out << \"null\"; break;",
  "        case JsonValue::Bool: out << (v.boolean ? \"true\" : \"false\"); break;",
  "        case JsonValue::Number:",
  "            if (v.integral) out << v.integer;",
  "            else out << harnessFormatDouble(v.number);",
  "            break;",
  "        case JsonValue::String: harnessWriteString(out, v.text); break;",
  "        case JsonValue::Array:",
  "            out << '[';",
  "            for (size_t i = 0; i < v.items.size(); i++) \x7b",
  "                if (i > 0) out << ',';",
  "                harnessWriteJson(out, v.items[i]);",
  "            \x7d",
  "            out << ']';",
  "            break;",
  "        case JsonValue::Object: \x7b",
  "            vector<size_t> order(v.keys.size());",
  "            for (size_t i = 0; i < order.size(); i++) order[i] = i;",
  "            sort(order.begin(), order.end(), [&](size_t a, size_t b) \x7b return v.keys[a] < v.keys[b]; \x7d);",
  "            out << '\x7b';",
  "            for (size_t i = 0; i < order.size(); i++) \x7b",
  "                if (i > 0) out << ',';",
  "                harnessWriteString(out, v.keys[order[i]]);",
  "                out << ':';",
  "                harnessWriteJson(out, v.values[order[i]]);",
  "            \x7d",
  "            out << '\x7d';",
  "            break;",
  "        \x7d",
  "    \x7d",
  "\x7d",
  "",
  "string harnessStringify(const JsonValue& v) \x7b",
  "    ostringstream out;",
  "    harnessWriteJson(out, v);",
  "    return out.str();",
  "\x7d",
  "",
  "int harnessCompare(const JsonValue& a, const JsonValue& b) \x7b",
  "    if (a.kind == JsonValue::Number && b.kind == JsonValue::Number) \x7b",
  "        double x = a.integral ? (double) a.integer : a.number;",
  "        double y = b.integral ? (double) b.integer : b.number;",
  "        return x < y ? -1 : (x > y ? 1 : 0);",
  "    \x7d",
  "    return harnessStringify(a).compare(harnessStringify(b));",
  "\x7d",
  "",
  "JsonValue harnessNormalize(const JsonValue& v) \x7b",
  "    JsonValue out = v;",
  "    if (v.kind == JsonValue::Array) \x7b",
  "        for (JsonValue& item : out.items) item = harnessNormalize(item);",
  "        stable_sort(out.items.begin(), out.items.end(), [](const JsonValue& a, const JsonValue& b) \x7b",
  "            return harnessCompare(a, b) < 0;",
  "        \x7d);",
  "    \x7d else if (v.kind == JsonValue::Object) \x7b",
  "        for (JsonValue& value : out.values) value = harnessNormalize(value);",
  "    \x7d",
  "    return out;",
  "\x7d",
  "",
  "JsonValue toJsonValue(const JsonValue& v) \x7b return v; \x7d",
  "",
  "JsonValue toJsonValue(bool b) \x7b",
  "    JsonValue v;",
  "    v.kind = JsonValue::Bool;",
  "    v.boolean = b;",
  "    return v;",
  "\x7d",
  "",
  "JsonValue toJsonValue(long long n) \x7b",
  "    JsonValue v;",
  "    v.kind = JsonValue::Number;",
  "    v.integral = true;",
  "    v.integer = n;",
  "    v.number = (double) n;",
  "    return v;",
  "\x7d",
  "",
  "JsonValue toJsonValue(int n) \x7b return toJsonValue((long long) n); \x7d",
  "JsonValue toJsonValue(long n) \x7b return toJsonValue((long long) n); \x7d",
  "JsonValue toJsonValue(short n) \x7b return toJsonValue((long long) n); \x7d",
  "JsonValue toJsonValue(unsigned n) \x7b return toJsonValue((long long) n); \x7d",
  "JsonValue toJsonValue(unsigned long n) \x7b return toJsonValue((long long) n); \x7d",
  "JsonValue toJsonValue(unsigned long long n) \x7b return toJsonValue((long long) n); \x7d",
  "",
  "JsonValue toJsonValue(double d) \x7b",
  "    JsonValue v;",
  "    if (std::isnan(d) || std::isinf(d)) return v;",
  "    v.kind = JsonValue::Number;",
  "    v.number = d;",
  "    if (d == std::floor(d) && std::fabs(d) < 1e15) \x7b",
  "        v.integral = true;",
  "        v.integer = (long long) d;",
  "    \x7d",
  "    return v;",
  "\x7d",
  "",
  "JsonValue toJsonValue(float f) \x7b return toJsonValue((double) f); \x7d",
  "",
  "JsonValue toJsonValue(const string& s) \x7b",
  "    JsonValue v;",
  "    v.kind = JsonValue::String;",
  "    v.text = s;",
  "    return v;",
  "\x7d",
  "",
  "JsonValue toJsonValue(const char* s) \x7b return toJsonValue(string(s == nullptr ? \"\" : s)); \x7d",
  "JsonValue toJsonValue(char c) \x7b return toJsonValue(string(1, c)); \x7d"]

/-- The half of the runtime behind the overloads for structures. -/
def templates : Text := block [
  "template <typename T> JsonValue toJsonValue(const vector<T>& items);",
  "template <typename A, typename B> JsonValue toJsonValue(const pair<A, B>& p);",
  "template <typename K, typename V> JsonValue toJsonValue(const map<K, V>& m);",
  "template <typename K, typename V> JsonValue toJsonValue(const unordered_map<K, V>& m);",
  "template <typename T> JsonValue toJsonValue(const set<T>& items);",
  "template <typename T> JsonValue toJsonValue(const unordered_set<T>& items);",
  "",
  "template <typename T> JsonValue toJsonValue(const vector<T>& items) \x7b",
  "    JsonValue out = harnessArray();",
  "    for (const auto& item : items) out.items.push_back(toJsonValue(item));",
  "    return out;",
  "\x7d",
  "",
  "template <typename A, typename B> JsonValue toJsonValue(const pair<A, B>& p) \x7b",
  "    JsonValue out = harnessArray();",
  "    out.items.push_back(toJsonValue(p.first));",
  "    out.items.push_back(toJsonValue(p.second));",
  "    return out;",
  "\x7d",
  "",
  "template <typename K, typename V> JsonValue toJsonValue(const map<K, V>& m) \x7b",
  "    JsonValue out = harnessObject();",
  "    for (const auto& entry : m) \x7b",
  "        JsonValue key = toJsonValue(entry.first);",
  "        harnessSet(out, key.kind == JsonValue::String ? key.text : harnessStringify(key), toJsonValue(entry.second));",
  "    \x7d",
  "    return out;",
  "\x7d",
  "",
  "template <typename K, typename V> JsonValue toJsonValue(const unordered_map<K, V>& m) \x7b",
  "    return toJsonValue(map<K, V>(m.begin(), m.end()));",
  "\x7d",
  "",
  "template <typename T> JsonValue toJsonValue(const set<T>& items) \x7b",
  "    JsonValue out = harnessArray();",
  "    for (const auto& item : items) out.items.push_back(toJsonValue(item));",
  "    return out;",
  "\x7d",
  "",
  "template <typename T> JsonValue toJsonValue(const unordered_set<T>& items) \x7b",
  "    return toJsonValue(set<T>(items.begin(), items.end()));",
  "\x7d",
  "",
  "template <typename T> struct JsonConvert \x7b",
  "    static T from(const JsonValue&) \x7b return T(); \x7d",
  "\x7d;",
  "",
  "template <> struct JsonConvert<JsonValue> \x7b",
  "    static JsonValue from(const JsonValue& v) \x7b return v; \x7d",
  "\x7d;",
  "",
  "template <> struct JsonConvert<int> \x7b",
  "    static int from(const JsonValue& v) \x7b return harnessInt(v); \x7d",
  "\x7d;",
  "",
  "template <> struct JsonConvert<long> \x7b",
  "    static long from(const JsonValue& v) \x7b return v.integral ? (long) v.integer : (long) v.number; \x7d",
  "\x7d;",
  "",
  "template <> struct JsonConvert<long long> \x7b",
  "    static long long from(const JsonValue& v) \x7b return v.integral ? v.integer : (long long) v.number; \x7d",
  "\x7d;",
  "",
  "template <> struct JsonConvert<double> \x7b",
  "    static double from(const JsonValue& v) \x7b return v.integral ? (double) v.integer : v.number; \x7d",
  "\x7d;",
  "",
  "template <> struct JsonConvert<float> \x7b",
  "    static float from(const JsonValue& v) \x7b return (float) JsonConvert<double>::from(v); \x7d",
  "\x7d;",
  "",
  "template <> struct JsonConvert<bool> \x7b",
  "    static bool from(const JsonValue& v) \x7b return v.kind == JsonValue::Bool && v.boolean; \x7d",
  "\x7d;",
  "",
  "template <> struct JsonConvert<char> \x7b",
  "    static char from(const JsonValue& v) \x7b",
  "        if (v.kind == JsonValue::String) return v.text.empty() ? '\\0' : v.text[0];",
  "        return (char) harnessInt(v);",
  "    \x7d",
  "\x7d;",
  "",
  "template <> struct JsonConvert<string> \x7b",
  "    static string from(const JsonValue& v) \x7b return v.kind == JsonValue::String ? v.text : harnessStringify(v); \x7d",
  "\x7d;",
  "",
  "template <typename T> struct JsonConvert<vector<T>> \x7b",
  "    static vector<T> from(const JsonValue& v) \x7b",
  "        vector<T> out;",
  "        for (const JsonValue& item : v.items) out.push_back(JsonConvert<T>::from(item));",
  "        return out;",
  "    \x7d",
  "\x7d;",
  "",
  "template <typename A, typename B> struct JsonConvert<pair<A, B>> \x7b",
  "    static pair<A, B> from(const JsonValue& v) \x7b",
  "        if (v.items.size() < 2) return pair<A, B>();",
  "        return make_pair(JsonConvert<A>::from(v.items[0]), JsonConvert<B>::from(v.items[1]));",
  "    \x7d",
  "\x7d;",
  "",
  "struct HarnessCapture \x7b",
  "    ostringstream buffer;",
  "    streambuf* saved;",
  "",
  "    HarnessCapture() : saved(cout.rdbuf(buffer.rdbuf())) \x7b\x7d",
  "    ~HarnessCapture() \x7b restore(); \x7d",
  "",
  "    void restore() \x7b",
  "        if (saved != nullptr) \x7b",
  "            cout.rdbuf(saved);",
  "            saved = nullptr;",
  "        \x7d",
  "    \x7d",
  "\x7d;",
  "",
  "string harnessVerdict(const string& status, const string& expectedJson, const string& actualJson, double time, const string& logs, bool failed, const string& error) \x7b",
  "    ostringstream out;",
  "    out << \"\x7b\\\"status\\\":\";",
  "    harnessWriteString(out, status);",
  "    out << \",\\\"expected\\\":\" << expectedJson;",
  "    out << \",\\\"actual\\\":\" << actualJson;",
  "    out << \",\\\"time\\\":\" << harnessFormatDouble(time);",
  "    if (!logs.empty()) \x7b",
  "        out << \",\\\"logs\\\":\";",
  "        harnessWriteString(out, logs);",
  "    \x7d",
  "    if (failed) \x7b",
  "        out << \",\\\"error\\\":\";",
  "        harnessWriteString(out, error);",
  "    \x7d",
  "    out << '\x7d';",
  "    return out.str();",
  "\x7d"]

end HarnessSynthesis.Fragments.Cpp
